import DumpDialect.CreateTable.Basic
import DumpDialect.Proofs.Identifier
import DumpDialect.Proofs.Pattern.Rewriting

/-!
# Symbols that no CREATE TABLE line gains

The rules for columns and constraints drop stretches of a line and move others. What they add stands
in their texts (`CreateTable.addedText`), so any other symbol is in the written line only if it was
in the line that was read.

- `CheckConstraint.not_mem_peelCasts`, `CheckConstraint.not_mem_balance`: the two steps that repeat
  a rule, by induction on the rounds.
- `CreateTable.not_mem_convert`: a whole line, whatever it defines.
-/

namespace DumpDialect

variable {s : Symbol} {line : Text}

/-! ## Constraints -/

namespace CheckConstraint

/-- Taking casts out of parentheses, round after round. -/
theorem not_mem_peelCasts (h : s ∉ line) : s ∉ peelCasts line := by
  induction line using peelCasts.induct with
  | case1 t peeled hshorter ih =>
    rw [peelCasts, if_pos hshorter]
    exact ih (Rule.not_mem_apply List.not_mem_nil h)
  | case2 t peeled hlonger =>
    rw [peelCasts, if_neg hlonger]
    exact h

theorem not_mem_balance (h : s ∉ line) : s ∉ balance line := by
  rw [balance]
  induction line.count (.char ')') - line.count (.char '(') with
  | zero => exact h
  | succ n ih => exact Rule.not_mem_apply List.not_mem_nil ih

theorem not_mem_convert (hadded : ∀ r ∈ anyRules, s ∉ r.fixedText) (h : s ∉ line) :
    s ∉ convert line := by
  have hbare : s ∉ bareCast.apply (peelCasts line) :=
    Rule.not_mem_apply List.not_mem_nil (not_mem_peelCasts h)
  exact not_mem_balance (not_mem_applyRules hadded hbare)

end CheckConstraint

/-! ## Columns -/

theorem Column.not_mem_convert [Quoting] (hback : s ≠ Identifier.backtick)
    (hdouble : s ≠ Identifier.doubleQuote) (hadded : ∀ r ∈ typeRules, s ∉ r.fixedText)
    (h : s ∉ line) : s ∉ convert line := by
  rw [convert]
  split
  · next parts hparts =>
    split at hparts
    · simp only [parts?] at hparts
      split at hparts
      · cases hparts
        have hnamed : s ∉ line.dropWhile Symbol.isBlank :=
          mt (List.dropWhile_sublist Symbol.isBlank).mem h
        have hrest := mt (List.dropWhile_sublist Symbol.isInk).mem hnamed
        have hindent := mt (List.takeWhile_sublist Symbol.isBlank).mem h
        have hname := mt (List.takeWhile_sublist Symbol.isInk).mem hnamed
        have hdefinition := mt (List.takeWhile_sublist Symbol.isInLine).mem hrest
        rw [List.mem_append, List.mem_append, not_or, not_or]
        exact ⟨⟨hindent, Identifier.not_mem_quote hback hdouble hname⟩,
          not_mem_applyRules hadded hdefinition⟩
      · cases hparts
    · cases hparts
  · exact not_mem_applyRules hadded h

/-! ## Lines -/

/-- All that the conversion of a line writes besides parts of the line, and the quotes that it
drops. -/
def CreateTable.addedText : Text :=
  [Identifier.backtick, Identifier.doubleQuote] ++
    (CheckConstraint.anyRules ++ Column.typeRules).flatMap Rule.fixedText

/-- A line gains no symbol but those that the conversion adds. -/
theorem CreateTable.not_mem_convert [Quoting] (hs : s ∉ addedText) (h : s ∉ line) :
    s ∉ convert line := by
  rw [addedText, List.flatMap_append, List.mem_append, List.mem_append, not_or, not_or] at hs
  obtain ⟨hquotes, hany, htypes⟩ := hs
  obtain ⟨hback, hdouble⟩ : s ≠ Identifier.backtick ∧ s ≠ Identifier.doubleQuote := by
    simpa using hquotes
  rw [convert]
  split
  · exact CheckConstraint.not_mem_convert
      (fun r hr hmem => hany (List.mem_flatMap.mpr ⟨r, hr, hmem⟩)) h
  · exact Column.not_mem_convert hback hdouble
      (fun r hr hmem => htypes (List.mem_flatMap.mpr ⟨r, hr, hmem⟩)) h

end DumpDialect
