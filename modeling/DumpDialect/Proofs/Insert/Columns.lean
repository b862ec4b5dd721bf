import DumpDialect.Proofs.ColumnList.Entries
import DumpDialect.Proofs.Insert.Literal
import DumpDialect.Proofs.Pattern.Preferred
import DumpDialect.Proofs.Text.Line

/-!
# The list of columns

pg_dump writes the names of the columns behind the table, bare if they are words, with a comma and a
blank between neighbours. Each of them is put into backticks, and what stands around the list is
kept.

- `ColumnList.names_joined`, `ColumnList.quote_joined`: a list of bare names.
- `Insert.quoteColumns_of_list`: a line with a list of columns.
-/

namespace DumpDialect

/-! ## Lists of names -/

namespace ColumnList

/-- A name that stands bare in a list of columns: it has none of the symbols that lists or quoting
are about. -/
structure IsBareName (name : Text) : Prop where
  ne_nil : name ≠ []
  noBlank : ∀ s ∈ name, s.isBlank = false
  noComma : .char ',' ∉ name
  noBacktick : Identifier.backtick ∉ name
  noDoubleQuote : Identifier.doubleQuote ∉ name

/-- A blank in front of a list does not show in its names. -/
theorem names_blank_cons (t : Text) : names (.char ' ' :: t) = names t := by
  obtain ⟨field, more, hfields⟩ := List.exists_cons_of_ne_nil (Text.fields_ne_nil (.char ',') t)
  have htrim : Text.trim (.char ' ' :: field) = field.trim := rfl
  rw [names, names, Text.fields, if_neg (by decide), hfields, List.map_cons, List.map_cons, htrim]

theorem names_joined {columns : List Text} (h : ∀ c ∈ columns, IsBareName c) :
    names (Text.joined ", " columns) = columns := by
  induction columns with
  | nil => rfl
  | cons c columns ih =>
    obtain ⟨hc, hcolumns⟩ := List.forall_mem_cons.mp h
    have htrim : c.trim = c := Text.trim_eq_self hc.noBlank
    have hne : c.trim ≠ [] := htrim.symm ▸ hc.ne_nil
    cases columns with
    | nil =>
      have hjoined : Text.joined ", " [c] = c := List.append_nil c
      rw [hjoined, names_of_not_mem hc.noComma hne, htrim]
    | cons c' columns =>
      have hseparator : Text.ofString ", " = [.char ',', .char ' '] := by decide
      rw [Text.joined_cons_cons, hseparator, List.append_assoc, List.cons_append,
        List.singleton_append, names_append_cons hc.noComma hne, names_blank_cons, ← hseparator,
        ih hcolumns, htrim]

/-- A list of bare names with each of them in backticks. -/
theorem quote_joined [Quoting] {columns : List Text} (h : ∀ c ∈ columns, IsBareName c) :
    quote (Text.joined ", " columns) =
      Text.joined "," (columns.map fun c => Identifier.backtick :: c ++ [Identifier.backtick]) := by
  have hquote : columns.map Identifier.quote =
      columns.map fun c => Identifier.backtick :: c ++ [Identifier.backtick] := by
    refine List.map_congr_left fun c hc => ?_
    exact Identifier.quote_of_not_mem (h c hc).noBacktick (h c hc).noDoubleQuote
  rw [quote, names_joined h, hquote]

end ColumnList

/-! ## Lines -/

namespace Insert

open Pattern

/-- What is found at the start of a line with a list of columns. -/
theorem columns_prefers {table list : Text} (hne : table ≠ [])
    (hink : ∀ s ∈ table, s.isInk = true) (hlist : list ≠ []) (hopen : .char ')' ∉ list)
    (after : Text) :
    columns.Prefers none ("INSERT INTO " ++ (table ++ (" " ++ ("(" ++ (list ++ ")"))))) after
      [(1, table), (2, list)] := by
  have hblanks : blanks.Prefers none []
      ("INSERT INTO " ++ (table ++ (" " ++ ("(" ++ (list ++ ")")))) ++ after) [] :=
    prefers_run (by simp) (by simp [Text.ofString]; decide)
  have hkeyword : (eitherCase "insert into ").Prefers none "INSERT INTO "
      (table ++ (" " ++ ("(" ++ (list ++ ")"))) ++ after) [] :=
    prefers_eitherCase (by decide)
  have htable : ink.Prefers (lastOf none "INSERT INTO ") table
      (" " ++ ("(" ++ (list ++ ")")) ++ after) [] :=
    prefers_someOf hne hink (by simp [Text.ofString]; decide)
  have hgap : blanks.Prefers (lastOf (lastOf none "INSERT INTO ") table) " "
      ("(" ++ (list ++ ")") ++ after) [] :=
    prefers_run (by decide) (by simp [Text.ofString]; decide)
  have hnames (prev : Option Symbol) :
      (someOf (Symbol.isNotIn ")")).Prefers prev list (")" ++ after) [] := by
    refine prefers_someOf hlist (fun s hs => ?_) (by simp [Text.ofString]; decide)
    have hs' : s ≠ .char ')' := fun heq => hopen (heq ▸ hs)
    simpa [Symbol.isNotIn, Text.ofString] using hs'
  exact hblanks.inOrder_cons (hkeyword.inOrder_cons ((htable.group 1).inOrder_cons
    (hgap.inOrder_cons (prefers_word.inOrder_cons (((hnames _).group 2).inOrder_cons
      prefers_word)))))

/-- The list of a line with columns is quoted, and nothing else is changed. -/
theorem quoteColumns_of_list [Quoting] {table list : Text} (hne : table ≠ [])
    (hink : ∀ s ∈ table, s.isInk = true) (hlist : list ≠ []) (hopen : .char ')' ∉ list)
    (after : Text) :
    quoteColumns ("INSERT INTO " ++ (table ++ (" (" ++ (list ++ (")" ++ after))))) =
      "INSERT INTO " ++ (table ++ (" (" ++ (ColumnList.quote list ++ (")" ++ after)))) := by
  have hline : "INSERT INTO " ++ (table ++ (" (" ++ (list ++ (")" ++ after)))) =
      "INSERT INTO " ++ (table ++ (" " ++ ("(" ++ (list ++ ")")))) ++ after := by
    simp [Text.ofString]
  have hgroup : [(1, table), (2, list)].lookup 2 = some list := rfl
  rw [quoteColumns, hline, atStart?, (columns_prefers hne hink hlist hopen after).at?]
  simp [Match.group, Match.group?, hgroup]

end Insert

end DumpDialect
