import DumpDialect.Proofs.Conversion.SequenceValues
import DumpDialect.Quoting

/-!
# Lines that cannot be got past

Two kinds of lines end a conversion: a CREATE TYPE statement where none is allowed, and a line with
the mark of a sequence value from which table and value cannot be read. Inside of a block the second
is a line like any other. The line that fails leaves the state as it was, and what was written
before it stays written.

- `Visit.error?_ne_none_iff`: which lines fail.
- `Visit.sameButCounts_of_error`: what such a line leaves behind.
- `convert_of_failing_line`: what is written for a dump that holds one.
- `failing_line_ends_conversion`: all of this.
-/

namespace DumpDialect

variable {cfg : Config}

/-! ## One line -/

/-- The line cannot be got past: it declares a type, where none may be declared, or it has the mark
of a sequence value, outside of blocks, and is not of the form from which the value is read. -/
def Visit.Fatal (cfg : Config) (v : Visit) : Prop :=
  (cfg.strict = true ∧ CreateTable.typeDeclaration.occursIn v.line = true) ∨
    (v.before.context ≠ some .block ∧ Block.opening.opens v.line = false ∧ v.Marked ∧
      SequenceValue.statement.occursIn v.line = false)

instance : DecidablePred (Visit.Fatal cfg) := fun v =>
  inferInstanceAs (Decidable ((cfg.strict = true ∧
      CreateTable.typeDeclaration.occursIn v.line = true) ∨
    (v.before.context ≠ some .block ∧ Block.opening.opens v.line = false ∧ v.Marked ∧
      SequenceValue.statement.occursIn v.line = false)))

/-- No value is read from a line exactly if the statement that sets one is nowhere in it. -/
theorem SequenceValue.read?_eq_none_iff {line : Text} :
    read? line = none ↔ statement.occursIn line = false := by
  rw [read?, Option.map_eq_none_iff, Pattern.occursIn, Option.isSome_eq_false_iff,
    Option.isNone_iff_eq_none]

namespace Visit

variable {v : Visit}

theorem kind?_eq_none_iff :
    v.kind? cfg = none ↔
      cfg.strict = true ∧ CreateTable.typeDeclaration.occursIn v.line = true := by
  rw [kind?]
  split
  · next h => simpa using h
  · next h => simpa using h

/-- The lines that fail. -/
theorem error?_ne_none_iff [Quoting] : (v.step cfg).error? ≠ none ↔ v.Fatal cfg := by
  rw [Fatal, ← kind?_eq_none_iff, ← SequenceValue.read?_eq_none_iff, Step.error?, result_step]
  constructor
  · intro h
    rcases hk : v.kind? cfg with _ | (_ | _ | kind | _) <;> simp only [hk] at h
    · exact .inl rfl
    · obtain ⟨hblock, hopens, hmarked⟩ := LineKind.of_eq_sequenceValue_iff.mp (kind?_eq_some hk)
      refine .inr ⟨hblock, hopens, hmarked, ?_⟩
      cases hread : SequenceValue.read? v.line with
      | none => rfl
      | some read => simp [hread] at h
    all_goals exact absurd rfl h
  · rintro (hk | ⟨hblock, -, hmarked, hread⟩)
    · simp [hk]
    · rcases kind?_of_marker cfg hblock hmarked with hk | hk <;> simp [hk, hread]

/-- The line that fails leaves the state as it was, and the error names the line. -/
theorem sameButCounts_of_error [Quoting] {e : ConversionError} (h : (v.step cfg).error? = some e) :
    State.SameButCounts v.before (v.step cfg).state ∧ e.lineNumber = v.before.lineNumber + 1 := by
  have hne : (v.step cfg).error? ≠ none := by simp [h]
  have hfatal := error?_ne_none_iff.mp hne
  -- Only two kinds of line can fail, and neither has touched more than the counts by then.
  have hkind : v.kind? cfg = none ∨
      v.kind? cfg = some .sequenceValue ∧ SequenceValue.read? v.line = none := by
    rcases hfatal with hforbidden | ⟨hblock, -, hmarked, hread⟩
    · exact .inl (kind?_eq_none_iff.mpr hforbidden)
    · exact (kind?_of_marker cfg hblock hmarked).imp_right
        (⟨·, SequenceValue.read?_eq_none_iff.mpr hread⟩)
  rw [Step.error?, result_step] at h
  rcases hkind with hk | ⟨hk, hread⟩
  · simp only [hk, Option.some.injEq] at h
    subst h
    exact ⟨by constructor <;> simp [step_of_forbidden hk, State.advanced], rfl⟩
  · simp only [hk, hread, Option.some.injEq] at h
    subst h
    refine ⟨⟨?_, ?_, ?_, ?_⟩, rfl⟩
    · simp only [context_step, hk]
    · simp only [suppressed_step, hk, hread]
    · simp [schemas_step, declared?, hk]
    · simp [deferred_step, deferred?, hk]

end Visit

/-! ## Whole dumps -/

/-- The conversion of a dump of which a line is the first that fails. -/
theorem convert_of_failing_line [Quoting] {lines : List Text} {before after : List (Text × Text)}
    {line next : Text} (hlines : withLookahead lines = before ++ (line, next) :: after)
    (hbefore : errorOf (run cfg {} before) = none) {e : ConversionError}
    (he : (step cfg (stateAfter {} (run cfg {} before)) line next).error? = some e) :
    (convert cfg lines).error? = some e ∧
      (convert cfg lines).output = banner ++ (run cfg {} before).flatMap Step.output := by
  have hrun : run cfg {} (withLookahead lines) =
      run cfg {} before ++ [step cfg (stateAfter {} (run cfg {} before)) line next] := by
    rw [hlines, run_append hbefore, run_cons, Step.error?_eq_some_iff.mp he]
  have hlast : errorOf (run cfg {} (withLookahead lines)) = some e := by
    rw [hrun, errorOf_append hbefore]
    exact he
  simp only [convert, hlast, true_and]
  simp [hrun, Step.output_of_error he]

/-- **A line that fails ends the conversion.** From every state a step fails exactly over a line
that cannot be got past. It then leaves the open statement, the verdict on it, the schemas and the
changes that wait as they were, and the error has the number of the line. If a line of a dump is the
first that fails, the error has its place among the lines, and what is written is the banner and
what the lines before it write; of the changes that wait nothing is written. -/
theorem failing_line_ends_conversion [Quoting] (cfg : Config) :
    (∀ v : Visit, ((v.step cfg).error? ≠ none ↔ v.Fatal cfg) ∧
      ∀ e, (v.step cfg).error? = some e →
        State.SameButCounts v.before (v.step cfg).state ∧
          e.lineNumber = v.before.lineNumber + 1) ∧
      ∀ (lines : List Text) (before after : List (Text × Text)) (line next : Text),
        withLookahead lines = before ++ (line, next) :: after →
        errorOf (run cfg {} before) = none →
        Visit.Fatal cfg ⟨stateAfter {} (run cfg {} before), line, next⟩ →
        (∃ e, (convert cfg lines).error? = some e ∧ e.lineNumber = before.length + 1) ∧
          (convert cfg lines).output = banner ++ (run cfg {} before).flatMap Step.output ∧
          ∀ dump : Text, dump.lines = lines → (convertText cfg dump).text =
            (banner ++ (run cfg {} before).flatMap Step.output).flatMap (· ++ [.lineFeed]) := by
  refine ⟨fun v => ⟨Visit.error?_ne_none_iff, fun e => Visit.sameButCounts_of_error⟩, ?_⟩
  intro lines before after line next hlines hbefore hfatal
  obtain ⟨e, he⟩ := Option.ne_none_iff_exists'.mp (Visit.error?_ne_none_iff.mpr hfatal)
  have hnumber := (Visit.sameButCounts_of_error he).2
  simp only [lineNumber_stateAfter, length_run hbefore, Nat.zero_add] at hnumber
  obtain ⟨herror, houtput⟩ := convert_of_failing_line hlines hbefore he
  refine ⟨⟨e, herror, hnumber⟩, houtput, ?_⟩
  rintro dump rfl
  rw [convertText, Conversion.text, houtput]

/-- A row, a default that waits, a block with a line that is no sequence value, and the same line
behind the block: the row is all that is written. -/
theorem row_before_failing_line :
    let cfg : Config := ⟨[], false, false⟩
    let row : Text := "INSERT INTO a.t VALUES (1);"
    let default : Text := "ALTER TABLE a.t ALTER COLUMN id SET DEFAULT nextval('a.s');"
    let value : Text := "SELECT pg_catalog.setval('s', 5, true);"
    let lines : List Text := [row, default, "BEGIN", value, "END", value, row]
    let before := (withLookahead lines).take 5
    let v : Visit := ⟨stateAfter {} (run cfg {} before), value, row⟩
    withLookahead lines = before ++ (value, row) :: [(row, [])] ∧
      errorOf (run cfg {} before) = none ∧ v.Fatal cfg ∧
      (v.step cfg).state.deferred = v.before.deferred ∧
      (convert cfg lines).error?.map (·.lineNumber) = some 6 ∧
      (convert cfg lines).output = banner ++ [row] := by
  intro cfg row default value lines before v
  have hlines : withLookahead lines = before ++ (value, row) :: [(row, [])] := by decide +kernel
  have hbefore : errorOf (run cfg {} before) = none := by decide +kernel
  have hfatal : v.Fatal cfg := by decide +kernel
  obtain ⟨hsteps, hdumps⟩ := failing_line_ends_conversion cfg
  obtain ⟨e, he⟩ := Option.ne_none_iff_exists'.mp ((hsteps v).1.mpr hfatal)
  obtain ⟨⟨e', he', hnumber⟩, houtput, -⟩ := hdumps lines _ _ _ _ hlines hbefore hfatal
  refine ⟨hlines, hbefore, hfatal, ((hsteps v).2 e he).1.deferred, ?_, ?_⟩
  · rw [he', Option.map_some, hnumber]
    decide +kernel
  · rw [houtput]
    decide +kernel

end DumpDialect
