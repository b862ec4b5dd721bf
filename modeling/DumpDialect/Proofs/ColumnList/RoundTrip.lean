import DumpDialect.Proofs.AlterTable.QuoteKey
import DumpDialect.Proofs.Insert.Columns
import DumpDialect.Quoting

/-!
# Lists of columns are read back

MySQL reads a name in backticks as what stands between them, with one backtick for each pair. From a
quoted list it reads the names of the list, in their order, whether they were bare or between double
quotes and whatever blanks stood around them. What is quoted already is left alone: a line that is
converted twice is the line that was converted once.

- `Identifier.unquote`: the name that MySQL reads.
- `ColumnList.Spelling`, `ColumnList.Entry`, `ColumnList.Written`: lists as they are written.
- `ColumnList.quote_quote`, `AlterTable.quoteKey_quoteKey`: lists and keys that were quoted.
- `ColumnList.Written.names_quote_text`, `ColumnList.quoting_keeps_names`: the round trip.
-/

namespace DumpDialect

/-- The name that MySQL reads: the text without its outer backticks, and with one backtick for each
two that stand side by side within. -/
def Identifier.unquote (t : Text) : Text := undoubleQuotes backtick (withoutEnds t)

section

variable [Quoting]

@[simp] theorem Identifier.unquote_inBackticks (name : Text) :
    unquote (Quoting.inBackticks name) = name := by
  rw [unquote, Quoting.inBackticks_eq, withoutEnds_between, undouble_double]

/-! ## Quoting again -/

theorem Identifier.trim_quote (identifier : Text) : (quote identifier).trim = quote identifier := by
  obtain ⟨inner, hinner⟩ := isBetween_iff.mp (isBetween_quote identifier)
  rw [hinner, Text.trim_enclosed (by decide)]

theorem Identifier.quote_ne_nil (identifier : Text) : quote identifier ≠ [] := by
  obtain ⟨inner, hinner⟩ := isBetween_iff.mp (isBetween_quote identifier)
  simp [hinner]

namespace ColumnList

/-- The names of a quoted list are the names of the list, each of them quoted. -/
theorem names_quote (columns : Text) :
    names (quote columns) = (names columns).map Identifier.quote := by
  have hentries : ∀ entry ∈ (names columns).map Identifier.quote,
      .char ',' ∉ entry ∧ entry.trim ≠ [] := by
    intro entry hentry
    obtain ⟨name, hname, rfl⟩ := List.mem_map.mp hentry
    rw [Identifier.trim_quote]
    exact ⟨Identifier.not_mem_quote (by decide) (by decide) (comma_not_mem hname),
      Identifier.quote_ne_nil name⟩
  have hnames := @names_joined_append ((names columns).map Identifier.quote) [] (by simp) hentries
  rw [List.append_nil, List.map_map] at hnames
  rw [quote, hnames]
  exact List.map_congr_left fun name _ => Identifier.trim_quote name

/-- A list that was quoted is left alone. -/
theorem quote_quote (columns : Text) : quote (quote columns) = quote columns := by
  calc quote (quote columns)
      = Text.joined "," (((names columns).map Identifier.quote).map Identifier.quote) := by
        rw [quote, names_quote]
    _ = Text.joined "," ((names columns).map Identifier.quote) := by
        rw [List.map_map]
        exact congrArg _ (List.map_congr_left fun name _ => Identifier.quote_quote name)
    _ = quote columns := rfl

end ColumnList

/-- A key whose columns were quoted is left alone. -/
theorem AlterTable.quoteKey_quoteKey (line : Text) : quoteKey (quoteKey line) = quoteKey line := by
  rcases KeyHead.quoteKey_cases line with hsame | ⟨indent, head, list, rest, hindent, hlist, rfl⟩
  · rw [hsame, hsame]
  · have hquoted : .char ')' ∉ ColumnList.quote list :=
      ColumnList.not_mem_quote (by decide) (by decide) (by decide) (by decide) hlist
    rw [KeyHead.quoteKey_indented hindent hlist, KeyHead.quoteKey_indented hindent hquoted,
      ColumnList.quote_quote]

end

/-! ## Lists as they are written -/

namespace ColumnList

open Identifier
open Quoting (inBackticks)

/-- How a name is written in a list: bare, or between double quotes with each double quote in it
doubled. -/
inductive Spelling where
  | bare (name : Text) (isBareName : IsBareName name)
  | quoted (name : Text) (noComma : .char ',' ∉ name)

namespace Spelling

/-- The name itself. -/
def name : Spelling → Text
  | bare name _ => name
  | quoted name _ => name

/-- The name as it is written. -/
def text : Spelling → Text
  | bare name _ => name
  | quoted name _ => inDoubleQuotes name

theorem quote_text [Quoting] (c : Spelling) : Identifier.quote c.text = inBackticks c.name := by
  cases c with
  | bare name h =>
    rw [text, ColumnList.Spelling.name, quote_of_not_mem h.noBacktick h.noDoubleQuote,
      Quoting.plain name h.noBacktick]
  | quoted name _ => exact quote_inDoubleQuotes name

theorem comma_not_mem_text (c : Spelling) : .char ',' ∉ c.text := by
  cases c with
  | bare name h => exact h.noComma
  | quoted name hname => simp [text, inDoubleQuotes, mem_doubleQuotes_iff, hname]

theorem text_ne_nil (c : Spelling) : c.text ≠ [] := by
  cases c with
  | bare name h => exact h.ne_nil
  | quoted name _ => simp [text, inDoubleQuotes]

theorem trim_text (c : Spelling) : c.text.trim = c.text := by
  cases c with
  | bare name h => exact Text.trim_eq_self h.noBlank
  | quoted name _ => exact Text.trim_enclosed (by decide) _

end Spelling

/-- A name in a list, with the blanks around it. -/
structure Entry where
  before : Text
  column : Spelling
  after : Text
  before_blank : ∀ s ∈ before, s.isBlank = true
  after_blank : ∀ s ∈ after, s.isBlank = true

/-- The entry as it is written. -/
def Entry.text (e : Entry) : Text := e.before ++ e.column.text ++ e.after

theorem Entry.trim_text (e : Entry) : e.text.trim = e.column.text :=
  Text.trim_between e.before_blank e.after_blank e.column.trim_text

theorem Entry.comma_not_mem_text (e : Entry) : .char ',' ∉ e.text := by
  have hnone {gap : Text} (hgap : ∀ s ∈ gap, s.isBlank = true) : .char ',' ∉ gap := fun hmem =>
    absurd (hgap _ hmem) (by decide)
  simp [text, hnone e.before_blank, hnone e.after_blank, e.column.comma_not_mem_text]

/-- A list of columns as it is written: its entries with commas between them, and blanks at its end,
which are all there is where it has no entry. -/
structure Written where
  entries : List Entry
  gap : Text
  gap_blank : ∀ s ∈ gap, s.isBlank = true

namespace Written

variable (list : Written)

/-- The text of the list. -/
def text : Text := Text.joined "," (list.entries.map Entry.text) ++ list.gap

/-- The names of the columns. -/
def names : List Text := list.entries.map fun e => e.column.name

theorem names_text : ColumnList.names list.text = list.entries.map fun e => e.column.text := by
  have hentries : ∀ entry ∈ list.entries.map Entry.text, .char ',' ∉ entry ∧ entry.trim ≠ [] := by
    intro entry hentry
    obtain ⟨e, -, rfl⟩ := List.mem_map.mp hentry
    rw [e.trim_text]
    exact ⟨e.comma_not_mem_text, e.column.text_ne_nil⟩
  rw [text, names_joined_append list.gap_blank hentries, List.map_map]
  exact List.map_congr_left fun e _ => e.trim_text

variable [Quoting]

theorem quote_names_text :
    (ColumnList.names list.text).map Identifier.quote = list.names.map inBackticks := by
  rw [names_text, names, List.map_map, List.map_map]
  exact List.map_congr_left fun e _ => e.column.quote_text

/-- The list in backticks. -/
theorem quote_text : ColumnList.quote list.text = Text.joined "," (list.names.map inBackticks) := by
  rw [ColumnList.quote, quote_names_text]

/-- MySQL reads the names of the list. -/
theorem names_quote_text :
    (ColumnList.names (ColumnList.quote list.text)).map unquote = list.names := by
  rw [names_quote, quote_names_text, List.map_map]
  simp [Function.comp_def]

end Written

/-- **Quoting keeps the names of a list, and what is quoted stays as it is.** Take a list of columns
with each name written bare or between double quotes, and any blanks around the names. Each of them
is put into backticks, with commas between them, and MySQL reads from the result the names that the
list was written for, in their order, none of them lost. And whatever the text, quoting an
identifier, a list of columns or a key a second time changes nothing. -/
theorem quoting_keeps_names [Quoting] :
    (∀ list : Written,
      quote list.text = Text.joined "," (list.names.map inBackticks) ∧
        (names (quote list.text)).map unquote = list.names) ∧
      (∀ identifier, Identifier.quote (Identifier.quote identifier) = Identifier.quote identifier) ∧
      (∀ columns, quote (quote columns) = quote columns) ∧
      ∀ line, AlterTable.quoteKey (AlterTable.quoteKey line) = AlterTable.quoteKey line :=
  ⟨fun list => ⟨list.quote_text, list.names_quote_text⟩, Identifier.quote_quote, quote_quote,
    AlterTable.quoteKey_quoteKey⟩

/-- A bare name, names with quotes of both kinds, and the empty name. -/
theorem names_with_quotes_kept :
    let columns : Text := " id , \"say \"\"hi\"\" \",\t\"a`b\",\"\" "
    quote columns = "`id`,`say \"hi\" `,`a``b`,``" ∧
      (names (quote columns)).map unquote = ["id", "say \"hi\" ", "a`b", ""] := by
  intro columns
  let list : Written := {
    entries := [
      ⟨" ", .bare "id" ⟨by decide, by decide, by decide, by decide, by decide⟩, " ",
        by decide, by decide⟩,
      ⟨" ", .quoted "say \"hi\" " (by decide), "", by decide, by decide⟩,
      ⟨"\t", .quoted "a`b" (by decide), "", by decide, by decide⟩,
      ⟨"", .quoted "" (by decide), "", by decide, by decide⟩]
    gap := " "
    gap_blank := by decide }
  obtain ⟨hround, -⟩ := quoting_keeps_names
  obtain ⟨hquote, hnames⟩ := hround list
  have htext : list.text = columns := by decide +kernel
  rw [htext] at hquote hnames
  exact ⟨hquote.trans (by decide +kernel), hnames⟩

end ColumnList

end DumpDialect
