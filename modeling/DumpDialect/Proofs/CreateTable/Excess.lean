import DumpDialect.Proofs.CreateTable.Parentheses

/-!
# Closing parentheses too many

A line ends in a row of closing parentheses, a comma or none, and blanks. Each round of `balance`
takes one parenthesis from the row, and nothing where the row is used up: it never reaches into what
stands in front. The number of rounds is the excess of closing parentheses in the whole line, so the
line comes out balanced exactly where the row is as long as the excess.

- `excess`, `closedBy`: the parentheses that are too many, and those at the end of a line.
- `lastParenthesis_closedBy_succ`, `lastParenthesis_closedBy_zero`: one round.
- `repeat_closedBy_succ`, `repeat_closedBy_zero`: all rounds, by induction on their number.
- `ClosedLine.excess_dropped`: the line that is written.
-/

namespace DumpDialect.CheckConstraint

/-- How many more closing parentheses than opening ones the text holds. -/
def excess (t : Text) : Int := t.count (.char ')') - t.count (.char '(')

/-- A text with `m` closing parentheses and then a tail at its end. -/
def closedBy (body : Text) (m : Nat) (tail : Text) : Text :=
  body ++ List.replicate m (.char ')') ++ tail

/-- What stands in front of the row of parentheses at the end of a line: it ends in no symbol that
could be part of the row or stand behind it. -/
structure IsBody (body : Text) : Prop where
  ne_nil : body ≠ []
  last : ∀ s ∈ body.getLast?, s ≠ .char ')' ∧ s ≠ .char ',' ∧ s.isBlank = false

variable {body comma gap tail : Text} {m : Nat}

theorem balance_eq_repeat (t : Text) :
    balance t = Nat.repeat lastParenthesis.apply (excess t).toNat t := by
  rw [balance, excess, Int.toNat_sub]

/-- The symbols that stand behind the last parenthesis of a line. -/
def isTailSymbol (s : Symbol) : Bool := s = .char ',' || s.isBlank

theorem IsTail.isTailSymbol (h : IsTail comma gap) : ∀ s ∈ comma ++ gap, isTailSymbol s = true := by
  obtain ⟨hcomma, hgap⟩ := h
  intro s hs
  rcases List.mem_append.mp hs with hs | hs
  · rcases hcomma with rfl | rfl
    · cases hs
    · rw [List.mem_singleton.mp hs]
      rfl
  · simp [CheckConstraint.isTailSymbol, hgap s hs]

/-- Each parenthesis of the row counts, and what stands behind it does not. -/
theorem excess_closedBy (htail : ∀ s ∈ tail, isTailSymbol s = true) :
    excess (closedBy body m tail) = excess body + m := by
  have hnone {s : Symbol} (hs : isTailSymbol s = false) : tail.count s = 0 :=
    List.count_eq_zero.mpr fun hmem => Bool.false_ne_true (hs.symm.trans (htail s hmem))
  have hclosing : tail.count (.char ')') = 0 := hnone (by decide)
  have hopening : tail.count (.char '(') = 0 := hnone (by decide)
  simp only [excess, closedBy, List.count_append, List.count_replicate, hclosing, hopening]
  simp
  omega

/-! ## One round -/

theorem closedBy_succ (body : Text) (m : Nat) (tail : Text) :
    closedBy body (m + 1) tail = closedBy body m [] ++ .char ')' :: tail := by
  simp [closedBy, List.replicate_succ']

/-- A round takes one parenthesis, and the blanks behind it. -/
theorem lastParenthesis_closedBy_succ (htail : IsTail comma gap)
    (h : (closedBy body (m + 1) (comma ++ gap)).IsOneLine) :
    lastParenthesis.apply (closedBy body (m + 1) (comma ++ gap)) = closedBy body m comma := by
  rw [closedBy_succ] at h ⊢
  rw [lastParenthesis_apply htail h]
  simp [closedBy]

/-- Where there is none at the end of the line, a round changes nothing. -/
theorem lastParenthesis_closedBy_zero (hbody : IsBody body) (htail : IsTail comma gap)
    (h : (closedBy body 0 (comma ++ gap)).IsOneLine) :
    lastParenthesis.apply (closedBy body 0 (comma ++ gap)) = closedBy body 0 (comma ++ gap) := by
  rcases lastParenthesis_cases h with hsame | ⟨front, comma', gap', htail', hsplit⟩
  · exact hsame
  · -- The tail is all that stands behind the last symbol of the body, so this is the parenthesis.
    exfalso
    have hrun {comma gap : Text} (h : IsTail comma gap) :
        ∀ s ∈ (comma ++ gap).reverse, isTailSymbol s = true := by
      simpa only [List.mem_reverse] using h.isTailSymbol
    have hstop : ∀ s ∈ body.reverse.head?, isTailSymbol s = false := by
      rw [List.head?_reverse]
      intro s hs
      simp [isTailSymbol, hbody.last s hs]
    have hreverse : (comma ++ gap).reverse ++ body.reverse =
        (comma' ++ gap').reverse ++ .char ')' :: front.reverse := by
      simpa [closedBy] using congrArg List.reverse hsplit
    obtain ⟨-, hsame⟩ := Text.eq_of_runs_eq (hrun htail) (hrun htail') hstop
      (by rintro _ ⟨⟩; decide) hreverse
    have hlast : Symbol.char ')' ∈ body.getLast? := by
      rw [← List.head?_reverse, hsame]
      rfl
    exact (hbody.last _ hlast).1 rfl

/-! ## All rounds -/

theorem isOneLine_closedBy {n : Nat} {tail : Text} (hsub : tail ⊆ comma ++ gap)
    (h : (closedBy body m (comma ++ gap)).IsOneLine) : (closedBy body n tail).IsOneLine := by
  simp only [closedBy, Text.isOneLine_append_iff] at h ⊢
  refine ⟨⟨h.1.1, fun hmem => ?_⟩, Text.IsOneLine.of_subset hsub (h.2.1.append h.2.2)⟩
  exact absurd (List.eq_of_mem_replicate hmem) (by decide)

/-- A line without a row of parentheses at its end stays as it is. -/
theorem repeat_closedBy_zero (hbody : IsBody body) (htail : IsTail comma gap)
    (h : (closedBy body 0 (comma ++ gap)).IsOneLine) (n : Nat) :
    Nat.repeat lastParenthesis.apply n (closedBy body 0 (comma ++ gap)) =
      closedBy body 0 (comma ++ gap) := by
  induction n with
  | zero => rfl
  | succ n ih => rw [Nat.repeat, ih, lastParenthesis_closedBy_zero hbody htail h]

/-- The first round drops the blanks at the end of the line, and each round one parenthesis, as long
as the row has one. -/
theorem repeat_closedBy_succ (hbody : IsBody body) (htail : IsTail comma gap)
    (h : (closedBy body (m + 1) (comma ++ gap)).IsOneLine) (n : Nat) :
    Nat.repeat lastParenthesis.apply (n + 1) (closedBy body (m + 1) (comma ++ gap)) =
      closedBy body (m - n) comma := by
  have hbare : IsTail comma [] := ⟨htail.1, by simp⟩
  have hline (k : Nat) : (closedBy body k (comma ++ [])).IsOneLine :=
    isOneLine_closedBy (by simp) h
  -- After the first round there are no blanks left, so each further round starts from a bare tail.
  induction n with
  | zero => exact lastParenthesis_closedBy_succ htail h
  | succ n ih =>
    rw [Nat.repeat, ih]
    cases hleft : m - n with
    | zero =>
      have hnone : m - (n + 1) = 0 := by omega
      have hsame := lastParenthesis_closedBy_zero hbody hbare (hline 0)
      rw [List.append_nil] at hsame
      rw [hnone, hsame]
    | succ k =>
      have hfewer : m - (n + 1) = k := by omega
      have hdropped := lastParenthesis_closedBy_succ hbare (hline (k + 1))
      rw [List.append_nil] at hdropped
      rw [hfewer, hdropped]

/-! ## The line -/

/-- A line that no rule changes before its parentheses are counted. -/
theorem convert_of_unchanged {line : Text}
    (h : ∀ r ∈ parenthesizedCast :: bareCast :: anyRules, r.apply line = line) :
    convert line = balance line := by
  simp only [anyRules, List.forall_mem_cons] at h
  obtain ⟨hpeel, hbare, hparenthesized, harray, hdoubled, -⟩ := h
  have hpeeled : peelCasts line = line := by
    rw [peelCasts, hpeel]
    exact if_neg (Nat.lt_irrefl _)
  rw [convert, hpeeled, hbare, anyRules, applyRules_cons, applyRules_cons, applyRules_cons,
    applyRules_nil, hparenthesized, harray, hdoubled]

/-- A line that no rule changes before its parentheses are counted, by what stands at its end. -/
structure ClosedLine where
  body : Text
  closing : Nat
  comma : Text
  gap : Text
  isBody : IsBody body
  isTail : IsTail comma gap
  isOneLine : (closedBy body closing (comma ++ gap)).IsOneLine
  unchanged : ∀ r ∈ parenthesizedCast :: bareCast :: anyRules,
    r.apply (closedBy body closing (comma ++ gap)) = closedBy body closing (comma ++ gap)

namespace ClosedLine

variable (c : ClosedLine)

/-- The line. -/
def line : Text := closedBy c.body c.closing (c.comma ++ c.gap)

theorem convert_line :
    convert c.line = Nat.repeat lastParenthesis.apply (excess c.line).toNat c.line := by
  have hconvert : convert c.line = balance c.line := convert_of_unchanged c.unchanged
  rw [hconvert, balance_eq_repeat]

theorem convert_of_not_closed (h : c.closing = 0) : convert c.line = c.line := by
  have hline : c.line = closedBy c.body 0 (c.comma ++ c.gap) := by rw [line, h]
  have hone := c.isOneLine
  rw [h] at hone
  rw [convert_line, hline, repeat_closedBy_zero c.isBody c.isTail hone]

theorem convert_of_excess (hexcess : 0 < excess c.line) (hclosing : 0 < c.closing) :
    convert c.line =
      closedBy c.body (c.closing - min c.closing (excess c.line).toNat) c.comma := by
  obtain ⟨m, hm⟩ := Nat.exists_eq_add_one.mpr hclosing
  obtain ⟨n, hn⟩ := Nat.exists_eq_add_one.mpr (show 0 < (excess c.line).toNat by omega)
  have hone := c.isOneLine
  have hleft : c.closing - min c.closing (excess c.line).toNat = m - n := by omega
  rw [hleft, convert_line, hn, line, hm]
  rw [hm] at hone
  exact repeat_closedBy_succ c.isBody c.isTail hone n

/-- **What is too much at the end of a line is dropped.** Take a line that no rule changes before
its parentheses are counted, with a row of closing parentheses at its end, and perhaps a comma and
blanks behind them. Without an excess of closing parentheses the line stays as it is, and so does a
line whose row is empty. Otherwise as many parentheses of the row go as are too many, or all of
them, and the blanks go too; the comma is kept. So the parentheses of the line are balanced if the
row has all that are too many. -/
theorem excess_dropped :
    (excess c.line ≤ 0 → convert c.line = c.line) ∧
      (0 < excess c.line → 0 < c.closing → convert c.line =
        closedBy c.body (c.closing - min c.closing (excess c.line).toNat) c.comma) ∧
      (0 < excess c.line → c.closing = 0 → convert c.line = c.line) ∧
      (0 < excess c.line → excess c.line ≤ c.closing →
        (convert c.line).count (.char '(') = (convert c.line).count (.char ')')) := by
  refine ⟨fun hnone => ?_, c.convert_of_excess, fun _ => c.convert_of_not_closed,
    fun hsome hall => ?_⟩
  · rw [convert_line, Int.toNat_of_nonpos hnone]
    rfl
  · have hclosing : 0 < c.closing := by omega
    have hcomma : ∀ s ∈ c.comma, isTailSymbol s = true := fun s hs =>
      c.isTail.isTailSymbol s (List.mem_append_left c.gap hs)
    have hbefore : excess c.line = excess c.body + c.closing :=
      excess_closedBy c.isTail.isTailSymbol
    have hafter := @excess_closedBy c.body c.comma
      (c.closing - min c.closing (excess c.line).toNat) hcomma
    rw [← c.convert_of_excess hsome hclosing] at hafter
    have hbalanced : excess (convert c.line) = 0 := by omega
    unfold excess at hbalanced
    omega

/-- Two of four parentheses are too many, and of three that are too many one stands at the end. -/
theorem row_longer_and_shorter_than_excess :
    let check : Text := "    CONSTRAINT c CHECK ("
    convert (check ++ "(a > 0)))), ") = check ++ "(a > 0))," ∧
      convert (check ++ "a) > 0)) > b),") = check ++ "a) > 0)) > b," := by
  intro check
  let longer : ClosedLine := {
    body := check ++ "(a > 0"
    closing := 4
    comma := ","
    gap := " "
    isBody := ⟨by decide +kernel, by decide +kernel⟩
    isTail := ⟨.inr (by decide), by decide⟩
    isOneLine := by decide +kernel
    unchanged := by decide +kernel }
  let shorter : ClosedLine := {
    body := check ++ "a) > 0)) > b"
    closing := 1
    comma := ","
    gap := []
    isBody := ⟨by decide +kernel, by decide +kernel⟩
    isTail := ⟨.inr (by decide), by decide⟩
    isOneLine := by decide +kernel
    unchanged := by decide +kernel }
  constructor
  · exact (longer.excess_dropped.2.1 (by decide +kernel) (by decide)).trans (by decide +kernel)
  · exact (shorter.excess_dropped.2.1 (by decide +kernel) (by decide)).trans (by decide +kernel)

end ClosedLine

end DumpDialect.CheckConstraint
