import DumpDialect.Proofs.Conversion.OneLine
import DumpDialect.Proofs.Insert.Line
import DumpDialect.Quoting

/-!
# The end of an INSERT statement, read off its line

Whether a line ends its statement is decided over what the line has become, with its columns quoted,
the keyword changed and its values rewritten. But neither the end of the line nor the number of its
quotes changes on the way, so the decision is one over the line itself.

- `parenthesisEnd_occursIn_iff`: what the end of a statement looks like.
- `stillOpen_eq_false_iff`: the decision.
-/

namespace DumpDialect.Insert

open Pattern

/-- In a line the end of a statement can only stand at the end of the line. -/
theorem parenthesisEnd_occursIn_iff {line : Text} (h : line.IsOneLine) :
    parenthesisEnd.occursIn line = true ↔ Text.ofString ");" <:+ line := by
  refine ⟨fun hoccurs => ?_, parenthesisEnd_occursIn⟩
  obtain ⟨before, _, after, _, rfl, hm⟩ := occursIn_iff.mp hoccurs
  obtain ⟨_, _, _, _, rfl, rfl, ⟨rfl, rfl⟩, hfinish⟩ := matches_inOrder_cons.mp hm
  obtain ⟨_, _, _, _, rfl, rfl, ⟨hafter, rfl, rfl⟩, rfl, rfl⟩ := matches_inOrder_cons.mp hfinish
  rw [List.append_nil, List.append_nil] at h ⊢
  rw [List.nil_append] at hafter
  rcases hafter with rfl | rfl
  · rw [List.append_nil]
    exact List.suffix_append ..
  · exact absurd (by simp) h

/-- **The end of an INSERT statement is read off its line.** From every state, and whether the
statement was open before it or not, a line ends the statement exactly if it ends with a closing
parenthesis and a semicolon and its quotes are even in number where the statement begins, odd where
it goes on. The columns that are quoted, the IGNORE that is written and the rules for values and
escapes have no say in it. -/
theorem stillOpen_eq_false_iff [Quoting] (cfg : Config) (st : State) {line : Text}
    (hline : Symbol.lineFeed ∉ line) (continued : Bool) :
    (Treatment.ofInsert cfg st line continued).stillOpen = false ↔
      Text.ofString ");" <:+ line ∧ line.count quote % 2 = if continued then 1 else 0 := by
  have hend : parenthesisEnd.occursIn (written cfg line) = true ↔ Text.ofString ");" <:+ line := by
    rw [parenthesisEnd_occursIn_iff (isOneLine_written hline cfg), suffix_written_iff]
  have hparity : (decide (line.count quote % 2 = 1) == continued) = true ↔
      line.count quote % 2 = if continued then 1 else 0 := by
    cases continued with
    | false => simp
    | true => simp
  rw [Treatment.ofInsert_eq, count_quote_valued]
  simp only [Bool.not_eq_false', Bool.and_eq_true, hend, hparity]

/-- A quote in the name of a column counts, and so do those of a value that the rules rewrite. -/
theorem quote_in_column_counts :
    let cfg : Config := ⟨[], true, false⟩
    let line : Text := "INSERT INTO a.t (\"o'k\", b) VALUES (1, '\\x0a');"
    Symbol.lineFeed ∉ line ∧ (Treatment.ofInsert cfg {} line false).stillOpen = true ∧
      (Treatment.ofInsert cfg {} line true).stillOpen = false := by
  intro cfg line
  have hline : Symbol.lineFeed ∉ line := by decide
  refine ⟨hline, ?_, ?_⟩
  · rw [← Bool.not_eq_false, stillOpen_eq_false_iff cfg {} hline]
    decide
  · rw [stillOpen_eq_false_iff cfg {} hline]
    decide

end DumpDialect.Insert
