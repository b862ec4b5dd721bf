import DumpDialect.Proofs.Conversion.Independence
import DumpDialect.Quoting

/-!
# The line after a line

Each line is handled with a look at the line after it. All that is looked for there is a foreign key
to a table that is left out, and the last line of a dump has an empty line after it. So a dump may
be cut into two, and the parts converted one after the other from the state that the first leaves,
unless the second begins with such a key.

- `Treatment.alike_lookahead`, `Treatment.recordAll_lookahead`: a line of a statement in front of
  two different lines.
- `Visit.outcome_lookahead`: a step in front of two different lines.
- `withLookahead_cons`: the line after the first line.
- `map_outcome_run_append`: a dump and its two parts.
- `lookahead_only_for_foreign_keys`: both.
-/

namespace DumpDialect

variable {cfg : Config}

/-- What a step comes to, its events apart: the lines written or the error, and the state. -/
def Step.outcome (s : Step) : Except ConversionError (List Text) × State := (s.result, s.state)

/-- A foreign key to a table that is left out is on both lines or on neither. -/
def Config.SameKeys (cfg : Config) (next next' : Text) : Prop :=
  (cfg.skippedTarget? next').isSome = (cfg.skippedTarget? next).isSome

/-- The same line in front of another one. -/
def Visit.inFrontOf (v : Visit) (next : Text) : Visit := { v with next := next }

/-! ## One line -/

/-- The state does not tell to which table a key points that is withheld. -/
theorem State.recordAll_foreignKeySkipped (st : State) {target? target?' : Option Text}
    (h : target?'.isSome = target?.isSome) :
    st.recordAll (target?'.toList.map .foreignKeySkipped) =
      st.recordAll (target?.toList.map .foreignKeySkipped) := by
  cases target? with
  | none =>
    obtain rfl : target?' = none := by simpa using h
    rfl
  | some target =>
    obtain ⟨target', rfl⟩ := Option.isSome_iff_exists.mp h
    rfl

namespace Treatment

variable {next next' : Text}

theorem alike_lookahead [Quoting] (h : cfg.SameKeys next next') (st : State) (kind : Statement)
    (line : Text) :
    Alike (ofStatement cfg st kind line next) (ofStatement cfg st kind line next') := by
  cases kind with
  | alterTable =>
    simp only [ofStatement, ofAlterTable_eq]
    rw [Config.SameKeys] at h
    split
    · exact ⟨rfl, rfl, rfl, rfl⟩
    · exact ⟨rfl, rfl, by simp only [h], rfl⟩
  | createTable | insert | block => exact ⟨rfl, rfl, rfl, rfl⟩

/-- The events of the two treatments add the same to a state. -/
theorem recordAll_lookahead [Quoting] (h : cfg.SameKeys next next') (st before : State)
    (kind : Statement) (line : Text) :
    st.recordAll (ofStatement cfg before kind line next').events =
      st.recordAll (ofStatement cfg before kind line next).events := by
  cases kind with
  | alterTable =>
    simp only [ofStatement, ofAlterTable_eq]
    split
    · rfl
    · simp only [State.recordAll_append, State.recordAll_foreignKeySkipped _ h]
  | createTable | insert | block => rfl

end Treatment

/-- Two treatments that come to the same leave the same state, if their events add the same. -/
theorem State.afterStatement_congr {st : State} {kind : Statement} {t t' : Treatment}
    (h : Treatment.Alike t t')
    (hevents : ∀ st : State, st.recordAll t'.events = st.recordAll t.events) :
    st.afterStatement kind t' = st.afterStatement kind t := by
  simp only [afterStatement, hevents, h.stillOpen, h.suppressed]

/-- What a step comes to does not depend on the line after its line, but for a foreign key there to
a table that is left out. -/
theorem Visit.outcome_lookahead [Quoting] {v : Visit} {next : Text} (h : cfg.SameKeys v.next next) :
    ((v.inFrontOf next).step cfg).outcome = (v.step cfg).outcome := by
  have hkind : (v.inFrontOf next).kind? cfg = v.kind? cfg := rfl
  rcases hk : v.kind? cfg with _ | (_ | _ | kind | _) <;> rw [hk] at hkind
  · rw [step_of_forbidden hk, step_of_forbidden hkind]
    rfl
  · rw [step_of_sequenceValue hk, step_of_sequenceValue hkind]
    rfl
  · rw [step_of_createIndex hk, step_of_createIndex hkind]
    rfl
  · have halike : Treatment.Alike (v.treatment cfg kind) ((v.inFrontOf next).treatment cfg kind) :=
      Treatment.alike_lookahead h v.before.advanced kind v.line
    rw [step_of_statement hk, step_of_statement hkind]
    refine Prod.ext (congrArg Except.ok halike.output) ?_
    exact State.afterStatement_congr halike fun st =>
      Treatment.recordAll_lookahead h st v.before.advanced kind v.line
  · rw [step_of_unrecognized hk, step_of_unrecognized hkind]
    rfl

/-! ## Dumps in two parts -/

/-- The line after the first line, without its ending; the empty text if there is none. -/
def lineAfter (more : List Text) : Text := (more.head?.map Text.withoutLineEnd).getD []

theorem withLookahead_cons (line : Text) (more : List Text) :
    withLookahead (line :: more) =
      (line.withoutLineEnd, lineAfter more) :: withLookahead more := by
  cases more <;> rfl

/-- Behind the first part of a dump, or behind a dump that ends there, is a key to a table that is
left out on both next lines or on neither, if the second part does not begin with such a key. -/
theorem sameKeys_lineAfter {second : List Text}
    (h : ∀ line ∈ second.head?, cfg.skippedTarget? line.withoutLineEnd = none)
    (more : List Text) : cfg.SameKeys (lineAfter more) (lineAfter (more ++ second)) := by
  cases more with
  | cons line more => rfl
  | nil =>
    cases second with
    | nil => rfl
    | cons line second =>
      have hline : cfg.skippedTarget? line.withoutLineEnd = none := h line rfl
      show (cfg.skippedTarget? line.withoutLineEnd).isSome = (cfg.skippedTarget? []).isSome
      rw [hline]
      rfl

theorem stateAfter_congr {st : State} {steps steps' : List Step}
    (h : steps'.map Step.outcome = steps.map Step.outcome) :
    stateAfter st steps' = stateAfter st steps := by
  have hlast := congrArg List.getLast? h
  rw [List.getLast?_map, List.getLast?_map] at hlast
  have hstate := congrArg (Option.map Prod.snd) hlast
  rw [Option.map_map, Option.map_map] at hstate
  exact congrArg (Option.getD · st) hstate

theorem errorOf_congr {steps steps' : List Step}
    (h : steps'.map Step.outcome = steps.map Step.outcome) : errorOf steps' = errorOf steps := by
  have hlast := congrArg List.getLast? h
  rw [List.getLast?_map, List.getLast?_map] at hlast
  have herror := congrArg (Option.bind · fun o => Step.error? ⟨o.1, o.2, []⟩) hlast
  simp only [Option.bind_map] at herror
  exact herror

/-- The steps over a dump in two parts: those over the first and then, unless one of them fails,
those over the second, from the state that the first leaves. -/
def runParts [Quoting] (cfg : Config) (st : State) (first second : List Text) : List Step :=
  let steps := run cfg st (withLookahead first)
  steps ++
    if errorOf steps = none then run cfg (stateAfter st steps) (withLookahead second) else []

theorem map_outcome_run_append [Quoting] (st : State) (first : List Text) {second : List Text}
    (h : ∀ line ∈ second.head?, cfg.skippedTarget? line.withoutLineEnd = none) :
    (run cfg st (withLookahead (first ++ second))).map Step.outcome =
      (runParts cfg st first second).map Step.outcome := by
  induction first generalizing st with
  | nil => rfl
  | cons line more ih =>
    -- Whatever the two runs see behind `line`, they agree on whether it is a key to an excluded
    -- table.
    have hhead : (step cfg st line.withoutLineEnd (lineAfter (more ++ second))).outcome =
        (step cfg st line.withoutLineEnd (lineAfter more)).outcome :=
      Visit.outcome_lookahead (v := ⟨st, line.withoutLineEnd, lineAfter more⟩)
        (sameKeys_lineAfter h more)
    obtain ⟨hresult, hstate⟩ := Prod.ext_iff.mp hhead
    simp only [Step.outcome] at hresult hstate
    rw [List.cons_append, withLookahead_cons, run_cons, List.map_cons, hhead, hresult, hstate,
      runParts, withLookahead_cons, run_cons]
    -- Behind a line that fails both runs are over, and the second part is not read.
    cases hr : (step cfg st line.withoutLineEnd (lineAfter more)).result with
    | ok written =>
      have hone : errorOf [step cfg st line.withoutLineEnd (lineAfter more)] = none := by
        simp [errorOf, Step.error?, hr]
      simp only [ih, runParts]
      rw [← List.singleton_append (l := run _ _ _), errorOf_append hone, List.singleton_append,
        stateAfter_cons]
      rfl
    | error e =>
      have hone : errorOf [step cfg st line.withoutLineEnd (lineAfter more)] = some e := by
        simp [errorOf, Step.error?, hr]
      simp [hone]

/-- **The next line matters only for foreign keys.** What a step writes, its error and the state
after it are the same in front of any two lines, if a foreign key to a table that is left out is on
both of them or on neither. Hence a dump in two parts, of which the second does not begin with such
a key, may be converted part by part: the steps write the same, leave the same state, and fail in
the same way, if at all. -/
theorem lookahead_only_for_foreign_keys [Quoting] (cfg : Config) :
    (∀ (st : State) (line next next' : Text),
      (cfg.skippedTarget? next').isSome = (cfg.skippedTarget? next).isSome →
        (step cfg st line next').result = (step cfg st line next).result ∧
          (step cfg st line next').state = (step cfg st line next).state) ∧
      ∀ (st : State) (first second : List Text),
        (∀ line ∈ second.head?, cfg.skippedTarget? line.withoutLineEnd = none) →
        let whole := run cfg st (withLookahead (first ++ second))
        let parts := runParts cfg st first second
        whole.map Step.outcome = parts.map Step.outcome ∧
          stateAfter st whole = stateAfter st parts ∧ errorOf whole = errorOf parts := by
  constructor
  · intro st line next next' h
    exact Prod.ext_iff.mp (Visit.outcome_lookahead (v := ⟨st, line, next⟩) h)
  · intro st first second h whole parts
    have hsteps := map_outcome_run_append st first h
    exact ⟨hsteps, stateAfter_congr hsteps, errorOf_congr hsteps⟩

/-- A statement cut in two in front of a key to a table that is kept, and a line in front of keys to
two different tables that are left out. -/
theorem cut_in_front_of_kept_key :
    let cfg : Config := ⟨["a.u", "a.w"], false, false⟩
    let header : Text := "ALTER TABLE ONLY a.t"
    let key (table : Text) : Text :=
      "    ADD CONSTRAINT k FOREIGN KEY (x) REFERENCES " ++ table ++ "(id);"
    let first : List Text := ["CREATE TABLE a.t ();\n", header ++ "\r\n"]
    let second : List Text := [key "a.v" ++ "\n", "INSERT INTO a.t VALUES (1);"]
    let whole := run cfg {} (withLookahead (first ++ second))
    (cfg.skippedTarget? (key "a.w")).isSome = (cfg.skippedTarget? (key "a.u")).isSome ∧
      (step cfg {} header (key "a.w")).state = (step cfg {} header (key "a.u")).state ∧
      (step cfg {} header (key "a.u")).state.suppressed = true ∧
      whole.map Step.outcome = (runParts cfg {} first second).map Step.outcome ∧
      whole.map (·.output.length) = [3, 1, 1, 1] := by
  intro cfg header key first second whole
  obtain ⟨hsteps, hdumps⟩ := lookahead_only_for_foreign_keys cfg
  have hkeys :
      (cfg.skippedTarget? (key "a.w")).isSome = (cfg.skippedTarget? (key "a.u")).isSome := by
    decide +kernel
  have hsecond : ∀ line ∈ second.head?, cfg.skippedTarget? line.withoutLineEnd = none := by
    decide +kernel
  exact ⟨hkeys, (hsteps {} header _ _ hkeys).2, by decide +kernel,
    (hdumps {} first second hsecond).1, by decide +kernel⟩

end DumpDialect
