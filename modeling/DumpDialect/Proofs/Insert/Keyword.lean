import DumpDialect.Proofs.Conversion.History
import DumpDialect.Proofs.Conversion.Openings
import DumpDialect.Proofs.Insert.Literal
import DumpDialect.Proofs.Pattern.Leading
import DumpDialect.Proofs.Pattern.Preferred
import DumpDialect.Quoting

/-!
# The keyword IGNORE

With IGNORE chosen MySQL goes on past rows that do not conform. The keyword is written before the
values of a line are rewritten and before its end is looked for, but neither begins in front of a
quote, a backslash or a parenthesis, so that the choice shows in the keyword alone.

- `ignoreRule_apply`: what the keyword replaces.
- `exists_written`: the two forms of a line that opens an INSERT statement.
- `Visit.sameEffects_step`: a step with either choice.
- `leniency_changes_keyword_only`: whole runs.
-/

namespace DumpDialect

/-- The configuration with this choice of IGNORE instead. -/
abbrev Config.ignoring (cfg : Config) (ignore : Bool) : Config :=
  { cfg with insertIgnore := ignore }

namespace Insert

open Pattern

variable {cfg : Config} {line : Text}

/-! ## The header of a line -/

/-- The keyword replaces the blanks in front of the header as well. -/
theorem ignoreRule_apply {indent : Text} (hindent : ∀ s ∈ indent, s.isBlank = true)
    (rest : Text) :
    ignoreRule.apply (indent ++ ("INSERT INTO " ++ rest)) = "INSERT IGNORE INTO " ++ rest := by
  have hblanks : blanks.Prefers none indent ("INSERT INTO " ++ rest) [] :=
    prefers_run hindent (by simp [Text.ofString]; decide)
  have hfound : ignoreRule.pattern.Prefers none (indent ++ "INSERT INTO ") rest [] :=
    prefers_start.inOrder_cons (hblanks.inOrder_cons prefers_word)
  have happly (t : Text) : ignoreRule.apply t =
      ignoreRule.pattern.replaceFirst ["INSERT IGNORE INTO "] t := rfl
  rw [happly, replaceFirst, ← List.append_assoc, hfound.find]
  simp [Match.expand]

/-- A line that opens an INSERT statement begins with the header, also with its columns quoted. -/
theorem exists_header [Quoting] (h : header.opens line = true) :
    ∃ indent rest : Text, (∀ s ∈ indent, s.isBlank = true) ∧
      quoteColumns line = indent ++ ("INSERT INTO " ++ rest) := by
  rcases quoteColumns_cases line with hsame | ⟨-, -, table, -, names, after, -, -, -, -, hquoted⟩
  · obtain ⟨w, after, groups, hline, hm⟩ := opens_iff.mp h
    simp only [header, matches_inOrder_cons, matches_blanks, matches_word] at hm
    obtain ⟨indent, _, _, _, rfl, rfl, ⟨hindent, rfl⟩, _, rest, _, _, rfl, rfl, ⟨rfl, rfl⟩, -⟩ := hm
    exact ⟨indent, rest ++ after, hindent, by rw [hsame, hline]; simp only [List.append_assoc]⟩
  · exact ⟨[], table ++ (" (" ++ (ColumnList.quote names ++ (")" ++ after))), by simp,
      by simp [hquoted]⟩

theorem headed_of_opens [Quoting] (h : header.opens line = true) :
    headed cfg line =
      if cfg.insertIgnore then ignoreRule.apply (quoteColumns line) else quoteColumns line := by
  have htable : Statement.insert.table? line ≠ none := by
    rw [ne_eq, Statement.table?_eq_none_iff, Bool.not_eq_false]
    exact h
  obtain ⟨table, htable⟩ := Option.ne_none_iff_exists'.mp htable
  simp only [headed, htable]

/-! ## The line -/

/-- What no match of the rules for values and for backslashes and no end of a statement begins
in. -/
def Untouched (u : Text) : Prop := quote ∉ u ∧ backslash ∉ u ∧ .char ')' ∉ u

instance : DecidablePred Untouched := fun _ => inferInstanceAs (Decidable (_ ∧ _))

theorem Untouched.append {u v : Text} (hu : Untouched u) (hv : Untouched v) :
    Untouched (u ++ v) := by
  simp only [Untouched, List.mem_append, not_or]
  exact ⟨⟨hu.1, hv.1⟩, ⟨hu.2.1, hv.2.1⟩, hu.2.2, hv.2.2⟩

theorem untouched_of_blank {indent : Text} (h : ∀ s ∈ indent, s.isBlank = true) :
    Untouched indent := by
  have hnot {s : Symbol} (hs : s.isBlank = false) : s ∉ indent := fun hmem => by
    rw [h s hmem] at hs
    cases hs
  exact ⟨hnot (by decide), hnot (by decide), hnot (by decide)⟩

/-- The rules leave such a front of a line as it is. -/
theorem applyRules_append {u : Text} (hu : Untouched u) (t : Text) :
    applyRules escapeRules (applyRules valueRules (u ++ t)) =
      u ++ applyRules escapeRules (applyRules valueRules t) := by
  have hvalue : ∀ r ∈ valueRules, r.BeginsIn [quote, backslash] := by decide
  have hescape : ∀ r ∈ escapeRules, r.BeginsIn [quote, backslash] := by decide
  have hsymbols : ∀ s ∈ [quote, backslash], s ∉ u := by
    simpa using ⟨hu.1, hu.2.1⟩
  rw [applyRules_append_of_begin hvalue hsymbols, applyRules_append_of_begin hescape hsymbols]

theorem parenthesisEnd_append {u : Text} (hu : Untouched u) (t : Text) :
    parenthesisEnd.occursIn (u ++ t) = parenthesisEnd.occursIn t :=
  occursIn_append (s := .char ')') (by decide) hu.2.2 t

/-- The two forms of a line that opens an INSERT statement. -/
theorem exists_written [Quoting] (cfg : Config) (h : header.opens line = true) :
    ∃ indent rest : Text, (∀ s ∈ indent, s.isBlank = true) ∧
      written (cfg.ignoring false) line = indent ++ ("INSERT INTO " ++ rest) ∧
      written (cfg.ignoring true) line = "INSERT IGNORE INTO " ++ rest := by
  obtain ⟨indent, rest, hindent, hquoted⟩ := exists_header h
  have hplain : Untouched (indent ++ "INSERT INTO ") :=
    (untouched_of_blank hindent).append (by decide)
  have hlenient : Untouched "INSERT IGNORE INTO " := by decide
  refine ⟨indent, applyRules escapeRules (applyRules valueRules rest), hindent, ?_, ?_⟩
  · rw [written, valued, headed_of_opens h, if_neg Bool.false_ne_true, hquoted,
      ← List.append_assoc, applyRules_append hplain, List.append_assoc]
  · rw [written, valued, headed_of_opens h, if_pos rfl, hquoted, ignoreRule_apply hindent,
      applyRules_append hlenient]

/-- Any other line has one form. -/
theorem written_of_continues [Quoting] (cfg : Config) (h : header.opens line = false) :
    written (cfg.ignoring true) line = written (cfg.ignoring false) line := by
  have htable : Statement.insert.table? line = none := Statement.table?_eq_none_iff.mpr h
  simp only [written, valued, headed, htable]

/-- A line looks like the end of its statement in both forms or in neither. -/
theorem parenthesisEnd_ignoring [Quoting] (cfg : Config) (line : Text) :
    parenthesisEnd.occursIn (written (cfg.ignoring true) line) =
      parenthesisEnd.occursIn (written (cfg.ignoring false) line) := by
  cases h : header.opens line with
  | false => rw [written_of_continues cfg h]
  | true =>
    obtain ⟨indent, rest, hindent, hplain, hlenient⟩ := exists_written cfg h
    have hfront : Untouched (indent ++ "INSERT INTO ") :=
      (untouched_of_blank hindent).append (by decide)
    rw [hplain, hlenient, parenthesisEnd_append (by decide), ← List.append_assoc,
      parenthesisEnd_append hfront]

end Insert

/-! ## Treatments and steps -/

/-- Two treatments that differ at most in the line that is written. -/
structure Treatment.SameEffects (t t' : Treatment) : Prop where
  stillOpen : t'.stillOpen = t.stillOpen
  suppressed : t'.suppressed = t.suppressed
  preamble : t'.preamble = t.preamble
  events : t'.events = t.events

theorem Treatment.sameEffects_ignoring [Quoting] (cfg : Config) (st : State) (kind : Statement)
    (line next : Text) :
    SameEffects (ofStatement (cfg.ignoring false) st kind line next)
      (ofStatement (cfg.ignoring true) st kind line next) := by
  cases kind with
  | insert =>
    simp only [ofStatement, ofInsert_eq, Insert.count_quote_valued, Insert.parenthesisEnd_ignoring]
    exact ⟨rfl, rfl, rfl, rfl⟩
  | createTable | alterTable | block => exact ⟨rfl, rfl, rfl, rfl⟩

/-- The two steps tell of the same and leave the same state, and none of them fails alone. -/
structure Step.SameEffects (s s' : Step) : Prop where
  state : s'.state = s.state
  events : s'.events = s.events
  error? : s'.error? = s.error?

/-- The line is taken for one that opens an INSERT statement. -/
def Visit.OpensInsert (cfg : Config) (v : Visit) : Prop :=
  v.kind? cfg = some (.statement .insert) ∧ Insert.header.opens v.line = true

instance (cfg : Config) : DecidablePred (Visit.OpensInsert cfg) := fun _ =>
  inferInstanceAs (Decidable (_ ∧ _))

/-- The second output has IGNORE in the header of its line and is the same otherwise; or neither
has a line. -/
def IgnoreAdded (output output' : List Text) : Prop :=
  (output = [] ∧ output' = []) ∨
    ∃ indent rest : Text, (∀ s ∈ indent, s.isBlank = true) ∧
      output = [indent ++ ("INSERT INTO " ++ rest)] ∧ output' = ["INSERT IGNORE INTO " ++ rest]

namespace Visit

variable [Quoting] (cfg : Config) (v : Visit)

theorem sameEffects_step :
    Step.SameEffects (v.step (cfg.ignoring false)) (v.step (cfg.ignoring true)) := by
  have hkind : v.kind? (cfg.ignoring true) = v.kind? (cfg.ignoring false) := rfl
  rcases hk : v.kind? (cfg.ignoring false) with _ | (_ | _ | kind | _) <;> rw [hk] at hkind
  · rw [step_of_forbidden hk, step_of_forbidden hkind]
    exact ⟨rfl, rfl, rfl⟩
  · rw [step_of_sequenceValue hk, step_of_sequenceValue hkind]
    exact ⟨rfl, rfl, rfl⟩
  · rw [step_of_createIndex hk, step_of_createIndex hkind]
    exact ⟨rfl, rfl, rfl⟩
  · have ht : Treatment.SameEffects (v.treatment (cfg.ignoring false) kind)
        (v.treatment (cfg.ignoring true) kind) :=
      Treatment.sameEffects_ignoring cfg v.before.advanced kind v.line v.next
    rw [step_of_statement hk, step_of_statement hkind]
    refine ⟨?_, ?_, rfl⟩
    · simp only [State.afterStatement, ht.events, ht.stillOpen, ht.suppressed]
    · simp only [ht.events]
  · rw [step_of_unrecognized hk, step_of_unrecognized hkind]
    exact ⟨rfl, rfl, rfl⟩

variable {cfg v}

/-- A line that opens an INSERT statement is written with either keyword, or withheld. -/
theorem ignoreAdded_of_opensInsert (h : v.OpensInsert (cfg.ignoring false)) :
    IgnoreAdded (v.step (cfg.ignoring false)).output (v.step (cfg.ignoring true)).output := by
  obtain ⟨hk, hopens⟩ := h
  have hkind : v.kind? (cfg.ignoring true) = some (.statement .insert) := hk
  obtain ⟨indent, rest, hindent, hplain, hlenient⟩ := Insert.exists_written cfg hopens
  rw [step_of_statement hk, step_of_statement hkind]
  simp only [Step.output, treatment, Treatment.ofStatement, Treatment.ofInsert_eq,
    Treatment.output, List.nil_append, hplain, hlenient]
  have hwithholds : (cfg.ignoring true).withholds = (cfg.ignoring false).withholds := rfl
  rw [hwithholds]
  by_cases h : (cfg.ignoring false).withholds v.before.advanced.suppressed
      (Statement.insert.table? v.line) = true
  · exact .inl ⟨if_pos h, if_pos h⟩
  · exact .inr ⟨indent, rest, hindent, if_neg h, if_neg h⟩

/-- Of any other line the same is written with either choice. -/
theorem output_of_not_opensInsert (h : ¬ v.OpensInsert (cfg.ignoring false)) :
    (v.step (cfg.ignoring true)).output = (v.step (cfg.ignoring false)).output := by
  have hkind : v.kind? (cfg.ignoring true) = v.kind? (cfg.ignoring false) := rfl
  rw [Step.output, Step.output, result_step, result_step, hkind]
  rcases hk : v.kind? (cfg.ignoring false) with _ | (_ | _ | (_ | _ | _ | _) | _)
  case some.statement.insert =>
    have hcontinues : Insert.header.opens v.line = false :=
      Bool.eq_false_iff.mpr fun hopens => h ⟨hk, hopens⟩
    simp only [treatment, Treatment.ofStatement, Treatment.ofInsert_eq,
      Insert.written_of_continues cfg hcontinues]
    rfl
  all_goals rfl

end Visit

/-! ## Runs -/

/-- Since the steps leave the same states and fail alike, the visits are the same. -/
theorem visits_ignoring [Quoting] (cfg : Config) (st : State) (lines : List (Text × Text)) :
    visits (cfg.ignoring true) st lines = visits (cfg.ignoring false) st lines := by
  induction lines generalizing st with
  | nil => rfl
  | cons pair rest ih =>
    obtain ⟨line, next⟩ := pair
    have hstep : Step.SameEffects (step (cfg.ignoring false) st line next)
        (step (cfg.ignoring true) st line next) := Visit.sameEffects_step cfg ⟨st, line, next⟩
    rw [visits_cons, visits_cons, hstep.error?, hstep.state, ih]

/-- **Leniency changes the keyword only.** Two runs over the same lines, of which the second writes
IGNORE, make the same visits. At each of them the states after the two steps are the same, and so
are the events and the error, if there is one. Both write the same, but that a line that opens an
INSERT statement, unless it is withheld, has INSERT IGNORE INTO in the second run for INSERT INTO
and the blanks in front of it in the first; what stands behind is the same. -/
theorem leniency_changes_keyword_only [Quoting] (cfg : Config) (st : State)
    (lines : List (Text × Text)) :
    let plain := cfg.ignoring false
    let lenient := cfg.ignoring true
    let history := visits plain st lines
    run plain st lines = history.map (Visit.step plain) ∧
      run lenient st lines = history.map (Visit.step lenient) ∧
      ∀ v ∈ history,
        Step.SameEffects (v.step plain) (v.step lenient) ∧
          (v.OpensInsert plain → IgnoreAdded (v.step plain).output (v.step lenient).output) ∧
          (¬ v.OpensInsert plain → (v.step lenient).output = (v.step plain).output) := by
  intro plain lenient history
  refine ⟨(map_step_visits st lines).symm, ?_, fun v _ => ⟨v.sameEffects_step cfg,
    Visit.ignoreAdded_of_opensInsert, Visit.output_of_not_opensInsert⟩⟩
  rw [← map_step_visits, visits_ignoring]

/-- A row behind blanks, with a backslash and a line break in its value. -/
theorem keyword_of_row_of_two_lines :
    let cfg : Config := ⟨["a.u"], false, true⟩
    let first : Text := " \tINSERT INTO a.t VALUES (\x27(\\n);"
    let second : Text := "INSERT INTO\\v\x27);"
    let lines : List (Text × Text) := [(first, second), (second, [])]
    let v : Visit := ⟨{}, first, second⟩
    let written : List (List Text) :=
      [["INSERT IGNORE INTO a.t VALUES (\x27(\\\\n);"], ["INSERT INTO\\v\x27);"]]
    v ∈ visits (cfg.ignoring false) {} lines ∧ v.OpensInsert (cfg.ignoring false) ∧
      IgnoreAdded (v.step (cfg.ignoring false)).output (v.step (cfg.ignoring true)).output ∧
      (run (cfg.ignoring true) {} lines).map (·.output) = written := by
  intro cfg first second lines v written
  have hv : v ∈ visits (cfg.ignoring false) {} lines := List.mem_cons_self
  have hopens : v.OpensInsert (cfg.ignoring false) := by decide +kernel
  obtain ⟨-, -, hsteps⟩ := leniency_changes_keyword_only cfg {} lines
  exact ⟨hv, hopens, (hsteps v hv).2.1 hopens, by decide +kernel⟩

end DumpDialect
