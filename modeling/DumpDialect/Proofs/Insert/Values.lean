import DumpDialect.Proofs.Conversion.History
import DumpDialect.Proofs.Conversion.Openings
import DumpDialect.Proofs.Insert.Keyword
import DumpDialect.Proofs.Insert.ValueRules
import DumpDialect.Proofs.Pattern.Preferred
import DumpDialect.Quoting

/-!
# Text values

A row with a text value, as pg_dump writes it and as MySQL reads it. A value whose backslashes all
stand in front of symbols for which they come through, and which holds no timestamp between quotes
of its own, is read back.

- `escapesOnly_row`, `not_zonedTime_row`: what the rules for values find in a row.
- `exists_literal_row`: the literal that MySQL reads.
- `headed_row`: what becomes of the header.
- `text_value_survives`: the value that MySQL reads.
-/

namespace DumpDialect.Insert

open Pattern

/-! ## Rows -/

/-- The name of a table that no rule for INSERT lines touches. -/
def IsPlain (table : Text) : Prop :=
  table ≠ [] ∧ ∀ s ∈ table, s.isInk = true ∧ s ≠ .char '(' ∧ s ≠ quote ∧ s ≠ backslash

instance : DecidablePred IsPlain := fun _ => inferInstanceAs (Decidable (_ ∧ _))

/-- What stands in front of the value in a row of one value. -/
def rowStart (ignore : Bool) (table : Text) : Text :=
  Text.ofString (if ignore then "INSERT IGNORE INTO " else "INSERT INTO ") ++
    (table ++ " VALUES (")

/-- The row of one value, given by its literal. -/
def row (ignore : Bool) (table literal : Text) : Text :=
  rowStart ignore table ++ (literal ++ ");")

theorem row_false (table literal : Text) :
    row false table literal = "INSERT INTO " ++ (table ++ (" VALUES (" ++ (literal ++ ");"))) := by
  simp [row, rowStart]

theorem row_dumped (ignore : Bool) (table value : Text) :
    row ignore table (dumped value) =
      rowStart ignore table ++ quote :: (doubleQuotes quote value ++ quote :: ");") := by
  simp [row, dumped]

/-- Behind the name of the table and blanks there is no parenthesis in a row. -/
private theorem not_parenthesis {table name gap t u : Text}
    (hplain : ∀ s ∈ table, s.isInk = true ∧ s ≠ .char '(') (hname : ∀ s ∈ name, s.isInk = true)
    (hgap : ∀ s ∈ gap, s.isBlank = true) :
    table ++ (" VALUES (" ++ t) ≠ name ++ (gap ++ ("(" ++ u)) := by
  have hblank {s : Symbol} (hink : s.isInk = true) : s.isBlank ≠ true := by
    simpa [Symbol.isInk] using hink
  intro heq
  -- The name found is read along the table; where one of the two ends first, the next symbols
  -- differ.
  induction table generalizing name with
  | nil =>
    cases name with
    | cons s name => exact hblank (hname s (by simp)) ((List.cons.inj heq).1 ▸ by decide)
    | nil =>
      match gap, hgap, heq with
      | [], _, heq => exact absurd (List.cons.inj heq).1 (by decide)
      | [_], _, heq =>
        exact absurd (List.cons.inj (List.cons.inj heq).2).1 (by decide)
      | _ :: s :: gap, hgap, heq =>
        have hs := (List.cons.inj (List.cons.inj heq).2).1
        exact absurd (hgap s (by simp)) (by rw [← hs]; decide)
  | cons s table ih =>
    obtain ⟨⟨hink, hparenthesis⟩, hplain⟩ := List.forall_mem_cons.mp hplain
    cases name with
    | cons s' name => exact ih hplain (fun x hx => hname x (by simp [hx])) (List.cons.inj heq).2
    | nil =>
      cases gap with
      | nil => exact hparenthesis (List.cons.inj heq).1
      | cons s' gap => exact hblank hink ((List.cons.inj heq).1 ▸ hgap s' (by simp))

theorem ignoreRule_row (table literal : Text) :
    ignoreRule.apply (row false table literal) = row true table literal := by
  have hnone : ∀ s ∈ ([] : Text), s.isBlank = true := by simp
  rw [row_false, ← List.nil_append (Text.ofString "INSERT INTO " ++ _), ignoreRule_apply hnone]
  simp [row, rowStart]

section Row

variable {table : Text} (htable : IsPlain table) (ignore : Bool)

include htable

theorem not_mem_rowStart {s : Symbol} (hs : s = quote ∨ s = backslash) :
    s ∉ rowStart ignore table := by
  have htable' : s ∉ table := by
    intro hmem
    obtain ⟨-, -, hquote, hback⟩ := htable.2 s hmem
    rcases hs with rfl | rfl
    · exact hquote rfl
    · exact hback rfl
  simp only [rowStart, List.mem_append, not_or]
  rcases hs with rfl | rfl <;> cases ignore <;> exact ⟨by decide, htable', by decide⟩

/-- No stretch of a row between two quotes is a timestamp with a zone if none of its value is. -/
theorem not_zonedTime_row {value : Text}
    (hvalue : ∀ field ∈ value.fields quote, ¬ ZonedTime field) :
    ∀ field ∈ (row ignore table (dumped value)).fields quote, ¬ ZonedTime field := by
  intro field hfield hzoned
  have hend : Text.fields quote ");" = [Text.ofString ");"] := by decide
  rw [row_dumped, Text.fields_append_cons, Text.fields_append_cons, hend,
    Text.fields_of_not_mem (not_mem_rowStart htable ignore (.inl rfl)), List.mem_append,
    List.mem_append, List.mem_singleton, List.mem_singleton] at hfield
  have hdigit := hzoned.isDigit_head?
  rcases hfield with rfl | hfield | rfl
  · cases ignore <;> exact absurd hdigit Bool.false_ne_true
  · rcases mem_fields_doubleQuotes hfield with rfl | hfield
    · cases hdigit
    · exact hvalue field hfield hzoned
  · exact absurd hdigit (by decide)

/-- The backslashes of a row are those of its value. -/
theorem escapesOnly_row {ok : Symbol → Bool} {value : Text} (hvalue : escapesOnly ok value = true) :
    escapesOnly ok (row ignore table (dumped value)) = true := by
  have hstart := not_mem_rowStart htable ignore (.inr rfl)
  have hquoted : escapesOnly ok ([quote] ++ doubleQuotes quote value) = true :=
    escapesOnly_append (escapesOnly_of_not_mem (by decide)) (escapesOnly_doubleQuotes hvalue)
  have hdumped : escapesOnly ok (dumped value) = true :=
    escapesOnly_append hquoted (escapesOnly_of_not_mem (by decide))
  exact escapesOnly_append (escapesOnly_of_not_mem hstart)
    (escapesOnly_append hdumped (escapesOnly_of_not_mem (by decide)))

/-- A row is written with its value in a literal that MySQL reads as the value. -/
theorem exists_literal_row {value : Text}
    (hescapes : escapesOnly (Symbol.isIn escapedSymbols) value = true) :
    ∃ literal, doubleBackslashes escapedWords (row ignore table (dumped value)) =
        row ignore table literal ∧
      literalValue? literal = some value := by
  have hstart : backslash ∉ rowStart ignore table := not_mem_rowStart htable ignore (.inr rfl)
  have hend : backslash ∉ Text.ofString ");" := by decide
  obtain ⟨w, hw, hread⟩ := readBack_of_escapesOnly hend hescapes
  refine ⟨quote :: (w ++ [quote]), ?_, ?_⟩
  · rw [row_dumped, doubleBackslashes_append hstart, doubleBackslashes_of_ne (by decide), hw]
    simp [row]
  · rw [literalValue?, if_pos rfl, hread]

/-! ## The header of a row -/

/-- The header of a row names the table. -/
theorem header_prefers (literal : Text) :
    header.Prefers none ("INSERT INTO " ++ table) (" VALUES (" ++ (literal ++ ");"))
      [(1, table)] := by
  have hink : ink.Prefers (lastOf none "INSERT INTO ") table
      (" VALUES (" ++ (literal ++ ");")) [] :=
    prefers_someOf htable.1 (fun s hs => (htable.2 s hs).1) (by simp [Text.ofString]; decide)
  have hblanks : blanks.Prefers none []
      ("INSERT INTO " ++ table ++ (" VALUES (" ++ (literal ++ ");"))) [] :=
    prefers_run (by simp) (by simp [Text.ofString]; decide)
  exact hblanks.inOrder_cons (prefers_word.inOrder_cons (hink.group 1))

theorem table?_row (literal : Text) :
    Statement.insert.table? (row false table literal) = some table := by
  rw [row_false, ← List.append_assoc, Statement.table?, Statement.opening, atStart?,
    (header_prefers htable literal).at?]
  rfl

/-- A row has no list of columns. -/
theorem columns_atStart?_row (literal : Text) :
    columns.atStart? (row false table literal) = none := by
  rw [← Option.not_isSome_iff_eq_none]
  intro hsome
  obtain ⟨_, after, _, hline, hm⟩ := isSome_at?_iff.mp hsome
  simp only [columns, matches_inOrder_cons, matches_inOrder_nil, matches_blanks,
    matches_eitherCase, matches_word, matches_group, ink, matches_someOf] at hm
  obtain ⟨indent, _, _, _, rfl, rfl, ⟨hindent, rfl⟩, keyword, _, _, _, rfl, rfl, ⟨hkeyword, rfl⟩,
    name, _, _, _, rfl, rfl, ⟨_, rfl, -, hname, rfl⟩, gap, _, _, _, rfl, rfl, ⟨hgap, rfl⟩,
    _, names, _, _, rfl, rfl, ⟨rfl, rfl⟩, -⟩ := hm
  simp only [row_false, List.append_assoc] at hline
  obtain rfl : indent = [] := by
    cases indent with
    | nil => rfl
    | cons s indent =>
      have hs := (List.cons.inj hline).1
      exact absurd (hindent s (by simp)) (by rw [← hs]; decide)
  have hlen : (Text.ofString "INSERT INTO ").length = keyword.length := by
    have hfolded := congrArg List.length hkeyword
    rw [List.length_map] at hfolded
    rw [hfolded]
    decide
  rw [List.nil_append] at hline
  obtain ⟨-, hrest⟩ := List.append_inj hline hlen
  have hplain : ∀ s ∈ table, s.isInk = true ∧ s ≠ .char '(' :=
    fun s hs => ⟨(htable.2 s hs).1, (htable.2 s hs).2.1⟩
  exact not_parenthesis hplain hname hgap hrest

/-- The header of a row says IGNORE if that is chosen. -/
theorem headed_row [Quoting] (cfg : Config) (literal : Text) :
    headed cfg (row false table literal) = row cfg.insertIgnore table literal := by
  have hcolumns : quoteColumns (row false table literal) = row false table literal := by
    rw [quoteColumns, columns_atStart?_row htable literal]
  simp only [headed, table?_row htable literal, hcolumns]
  split
  · next hignore => rw [ignoreRule_row table literal, hignore]
  · next hignore => rw [Bool.eq_false_iff.mpr hignore]

end Row

/-! ## The value that MySQL reads -/

/-- **A text value comes through.** A row of one text value, read outside of statements, is written
with its value in a literal that MySQL reads as the value, if each backslash of the value stands
right in front of one of the `escapedSymbols`, and no stretch of the value between two quotes, or
between a quote and an end of it, is a timestamp with a zone. The table must be kept and touched by
no rule, and the line must neither be refused nor be taken for the value of a sequence. -/
theorem text_value_survives [Quoting] (cfg : Config) (v : Visit) {table value : Text}
    (hcontext : v.before.context = none) (hline : v.line = row false table (dumped value))
    (htable : IsPlain table) (hkept : table ∉ cfg.skipTables)
    (hallowed : cfg.strict = true → CreateTable.typeDeclaration.occursIn v.line = false)
    (hmarker : SequenceValue.marker.occursIn v.line = false)
    (hescapes : escapesOnly (Symbol.isIn escapedSymbols) value = true)
    (htime : ∀ field ∈ value.fields quote, ¬ ZonedTime field) :
    ∃ literal, (v.step cfg).result = .ok [row cfg.insertIgnore table literal] ∧
      literalValue? literal = some value := by
  obtain ⟨literal, hliteral, hvalue⟩ := exists_literal_row htable cfg.insertIgnore hescapes
  refine ⟨literal, ?_, hvalue⟩
  have htable? : Statement.insert.table? v.line = some table := by
    rw [hline, table?_row htable]
  have hkind : v.kind? cfg = some (.statement .insert) := by
    have hopens : Statement.insert.opening.opens v.line = true := by
      rw [← Bool.not_eq_false, ← Statement.table?_eq_none_iff, htable?]
      simp
    have hrefused : (cfg.strict && CreateTable.typeDeclaration.occursIn v.line) = false := by
      cases hstrict : cfg.strict with
      | false => rfl
      | true => rw [hallowed hstrict, Bool.and_false]
    rw [Visit.kind?, if_neg (by simp [hrefused]), hcontext,
      LineKind.of_opens (.inl rfl) hopens hmarker]
  -- No rule touches the front, and in the value only the rules for backslashes find something.
  have hwritten : written cfg v.line = row cfg.insertIgnore table literal := by
    rw [written, valued, hline, headed_row htable, applyRules_eq
      (escapesOnly_row htable _ hescapes) (not_zonedTime_row htable _ htime), hliteral]
  have hskips : cfg.skips table = false := by
    rw [← Bool.not_eq_true, Config.skips_iff]
    exact hkept
  rw [Visit.step_of_statement hkind]
  simp [Visit.treatment, Treatment.ofStatement, Treatment.ofInsert_eq, Treatment.output, htable?,
    Config.withholds, hskips, hwritten]

/-- A value with a quote, an escape of newline and escapes of both kinds of quotes. -/
theorem escapes_and_quotes_survive :
    let cfg : Config := ⟨[], true, false⟩
    let value : Text := "it\x27s a\\n \\\x27 \\\x22 100\\% 2020-06-08 11:27:31.5-07"
    let v : Visit := ⟨{}, row false "a.t" (dumped value), []⟩
    ∃ literal, (v.step cfg).result = .ok [row true "a.t" literal] ∧
      literalValue? literal = some value := by
  intro cfg value v
  refine text_value_survives cfg v rfl rfl (by decide +kernel) (by decide)
    (fun h => (nomatch h)) (by decide +kernel) (by decide +kernel) fun field hfield hzoned => ?_
  have hfields : ∀ field ∈ value.fields quote, field.head?.any Symbol.isDigit = false := by
    decide +kernel
  have hdigit := hzoned.isDigit_head?
  rw [hfields field hfield] at hdigit
  cases hdigit

/-- Values that do not come through: a backslash in front of another symbol is lost, a backslash at
the end takes the closing quote, of two backslashes one is lost, and a timestamp between quotes of
the value loses its zone. -/
theorem values_that_do_not_survive :
    let cfg : Config := ⟨[], false, false⟩
    let result (value : Text) :=
      (Visit.step cfg ⟨{}, row false "a.t" (dumped value), []⟩).result
    (result "a\\d" = .ok [row false "a.t" "\x27a\\d\x27"] ∧
      literalValue? "\x27a\\d\x27" = some (Text.ofString "ad")) ∧
    (result "a\\" = .ok [row false "a.t" "\x27a\\\x27"] ∧ literalValue? "\x27a\\\x27" = none) ∧
    (result "a\\\\" = .ok [row false "a.t" "\x27a\\\\\x27"] ∧
      literalValue? "\x27a\\\\\x27" = some (Text.ofString "a\\")) ∧
    (result "\x272020-06-08 11:27:31.5-07\x27" =
        .ok [row false "a.t" "\x27\x27\x272020-06-08 11:27:31.5\x27\x27\x27"] ∧
      literalValue? "\x27\x27\x272020-06-08 11:27:31.5\x27\x27\x27" =
        some (Text.ofString "\x272020-06-08 11:27:31.5\x27")) := by
  decide +kernel

end DumpDialect.Insert
