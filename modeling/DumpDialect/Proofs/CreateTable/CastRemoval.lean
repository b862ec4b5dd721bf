import DumpDialect.Proofs.CreateTable.AnyOfArray
import DumpDialect.Proofs.CreateTable.Casts

/-!
# CHECK constraints without casts

A CHECK constraint with casts in its expression is written as the same constraint around an
expression without them. Parentheses around what was cast may stay; apart from those the expression
is the same, and it is read in one way only.

- `CheckFrame.peelCasts_line`, `CheckFrame.bareCast_line`: the casts of a line.
- `CheckFrame.applyRules_line`, `CheckFrame.balance_line`: the other steps leave it alone.
- `CheckFrame.convert_without_casts`: the line that is written.
-/

namespace DumpDialect.CheckConstraint

open Pattern DumpDialect.TypeName

/-- What stands around the expression of a CHECK constraint. The name of the constraint, with the
blank in front of it, holds none of the words that the rules look for, and no more closing
parentheses than opening ones. -/
structure CheckFrame where
  indent : Text
  name : Text
  comma : Text
  blank : ∀ s ∈ indent, s.isBlank = true
  noCast : ¬ Text.ofString "::" <:+: name
  noArray : ∀ v ∈ [Text.ofString "= ANY (ARRAY[", "= ANY ARRAY["], ¬ v <:+: name
  noList : ¬ Text.ofString " IN ((" <:+: " " ++ name
  noClosing : name.count (.char ')') ≤ name.count (.char '(')
  isComma : comma = [] ∨ comma = Text.ofString ","

namespace CheckFrame

variable (c : CheckFrame)

/-- The line of the constraint with this expression. -/
def line (body : Text) : Text :=
  c.indent ++ "CONSTRAINT " ++ c.name ++ " CHECK (" ++ body ++ ")" ++ c.comma

/-- What stands in front of the parenthesis around the expression. -/
def front : Text := c.indent ++ "CONSTRAINT " ++ c.name ++ " CHECK "

theorem line_eq (body : Text) :
    c.line body = c.front ++ .char '(' :: (body ++ .char ')' :: c.comma) := by
  have hcheck : Text.ofString " CHECK (" = " CHECK " ++ [Symbol.char '('] := by decide
  have hclose : Text.ofString ")" = [.char ')'] := by decide
  simp [line, front, hcheck, hclose]

theorem not_mem_comma {s : Symbol} (hs : s ≠ .char ',') : s ∉ c.comma := by
  have hcomma : Text.ofString "," = [.char ','] := by decide
  rcases c.isComma with h | h <;> simp [h, hcomma, hs]

theorem not_mem_indent {s : Symbol} (hs : s.isBlank = false) : s ∉ c.indent := fun hmem => by
  rw [c.blank s hmem] at hs
  cases hs

theorem noCast_front : ¬ Text.ofString "::" <:+: c.front := by
  have hsplit : c.front = (c.indent ++ "CONSTRAINT ") ++ (c.name ++ " CHECK ") := by simp [front]
  refine fun h => c.noCast (Text.infix_of_infix_between rfl rfl ?_ (by decide) (hsplit ▸ h))
  exact List.not_mem_append (c.not_mem_indent (by decide)) (by decide)

/-! ## The casts of a line -/

/-- What stands in front of the expression is passed over. -/
theorem parenthesizedCast_front (t : Text) :
    parenthesizedCast.apply (c.front ++ .char '(' :: t) =
      c.front ++ parenthesizedCast.apply (.char '(' :: t) := by
  refine replaceAll_append_of_none parenthesizedCast_leading _ fun gone here hsplit hne =>
    at?_parenthesizedCast_eq_none fun y tail hy heq => ?_
  obtain ⟨s, here, rfl⟩ := List.exists_cons_of_ne_nil hne
  obtain ⟨rfl, hinner⟩ := List.cons.inj heq
  -- The parenthesis around the expression is not opened within the parentheses of a cast.
  rcases List.append_eq_append_iff.mp hinner with ⟨between, rfl, hbehind⟩ | ⟨between, rfl, hbehind⟩
  · rcases List.append_eq_cons_iff.mp hbehind.symm with ⟨rfl, hnext⟩ | ⟨between, rfl, -⟩
    · cases (List.cons.inj hnext).1
    · exact hy.1 (by simp)
  · rcases List.append_eq_cons_iff.mp hbehind.symm with ⟨-, hnext⟩ | ⟨between, rfl, hsign⟩
    · cases (List.cons.inj hnext).1
    · have hcast : Text.ofString "::" <+: between ++ .char '(' :: t := hsign ▸ ⟨tail, rfl⟩
      refine c.noCast_front ((Text.prefix_of_prefix_append_cons (by decide) hcast).isInfix.trans ?_)
      exact ⟨gone ++ .char '(' :: (y ++ [.char ')']), [], by simp [hsplit]⟩

theorem bareCast_front (t : Text) :
    bareCast.apply (c.front ++ .char '(' :: t) = c.front ++ bareCast.apply (.char '(' :: t) := by
  refine replaceAll_append_of_none bareCast_leading _ fun gone here hsplit hne =>
    at?_eq_none_iff.mpr fun w rest groups hw hm => ?_
  have hcast : Text.ofString "::" <+: here ++ .char '(' :: t :=
    hm.word_begins.trans ⟨rest, hw.symm⟩
  refine c.noCast_front ((Text.prefix_of_prefix_append_cons (by decide) hcast).isInfix.trans ?_)
  exact hsplit ▸ (List.suffix_append gone here).isInfix

/-- One round over a line. -/
theorem parenthesizedCast_line (e : Phrase .expression) :
    parenthesizedCast.apply (c.line e.text) = c.line e.peel.text := by
  have hcomma : .char ':' ∉ c.comma := c.not_mem_comma (by decide)
  have hend : parenthesizedCast.apply (.char ')' :: c.comma) = .char ')' :: c.comma :=
    parenthesizedCast_eq_self (by simp [c.not_mem_comma (s := .char '(') (by decide)])
  rw [line_eq, line_eq, parenthesizedCast_front,
    parenthesizedCast_enclosed e.balanced_text (.inr fun h => hcomma (List.mem_of_head? h)),
    e.parenthesizedCast_text (.close _), hend]

/-- Peeling leaves a line of the same constraint, with the same expression but for casts. -/
theorem peelCasts_line (e : Phrase .expression) :
    ∃ e' : Phrase .expression, peelCasts (c.line e.text) = c.line e'.text ∧
      e'.plain.uncast = e.plain.uncast := by
  induction hlength : (c.line e.text).length using Nat.strongRecOn generalizing e with
  | ind n ih =>
    rw [peelCasts, c.parenthesizedCast_line e]
    split
    · next hshorter =>
      obtain ⟨e', hpeeled, hsame⟩ := ih _ (hlength ▸ hshorter) e.peel rfl
      exact ⟨e', hpeeled, hsame.trans e.uncast_plain_peel⟩
    · exact ⟨e, rfl, rfl⟩

theorem bareCast_line (e : Phrase .expression) :
    bareCast.apply (c.line e.text) = c.line e.bare.text := by
  have hopen (t : Text) : bareCast.apply (.char '(' :: t) = .char '(' :: bareCast.apply t :=
    bareCast_append (t := [.char '(']) (by decide) t
  have hend : bareCast.apply (.char ')' :: c.comma) = .char ')' :: c.comma :=
    bareCast_eq_self (by simp [c.not_mem_comma (s := .char ':') (by decide)])
  rw [line_eq, line_eq, bareCast_front, hopen, e.bareCast_text (.close _), hend]

/-! ## The other steps -/

/-- No comparison with an array stands in a line without casts. -/
theorem not_array_infix_line (e : Phrase .expression) :
    ∀ v ∈ [Text.ofString "= ANY (ARRAY[", "= ANY ARRAY["], ¬ v <:+: c.line e.bare.text := by
  have hends : ∀ v ∈ [Text.ofString "= ANY (ARRAY[", "= ANY ARRAY["],
      v.head? = some (.char '=') ∧ v.getLast? = some (.char '[') := by decide
  intro v hv h
  obtain ⟨hfirst, hlast⟩ := hends v hv
  have hsplit : c.line e.bare.text =
      (c.indent ++ "CONSTRAINT ") ++ (c.name ++ (" CHECK (" ++ e.bare.text ++ ")" ++ c.comma)) := by
    simp [line]
  refine c.noArray v hv (Text.infix_of_infix_between hfirst hlast ?_ ?_ (hsplit ▸ h))
  · exact List.not_mem_append (c.not_mem_indent (by decide)) (by decide)
  · exact List.not_mem_append (List.not_mem_append (List.not_mem_append (by decide)
      (e.not_mem_bare (by decide))) (by decide)) (c.not_mem_comma (by decide))

/-- No list in two pairs of parentheses stands in a line without casts. -/
theorem not_list_infix_line (e : Phrase .expression) :
    ¬ Text.ofString " IN ((" <:+: c.line e.bare.text := by
  have hlast : Text.ofString " IN ((" = " IN (" ++ [Symbol.char '('] := by decide
  have hinner : Text.ofString "N (" <:+: Text.ofString " IN ((" := ⟨" I", "(", by decide⟩
  -- The T of CONSTRAINT and the K of CHECK are not in the word, so it lies between them or beside.
  have hsplit : c.line e.bare.text = (c.indent ++ "CONSTRAIN") ++ .char 'T' ::
      ((.char ' ' :: c.name ++ Text.ofString " CHEC") ++ .char 'K' ::
        ((.char ' ' :: .char '(' :: e.bare.text) ++ .char ')' :: c.comma)) := by
    have hconstraint : Text.ofString "CONSTRAINT " =
        "CONSTRAIN" ++ [Symbol.char 'T', .char ' '] := by decide
    have hcheck : Text.ofString " CHECK " = " CHEC" ++ [Symbol.char 'K', .char ' '] := by decide
    simp [line_eq, front, hconstraint, hcheck]
  have hbefore : ¬ Text.ofString " IN ((" <:+: c.indent ++ "CONSTRAIN" := fun h =>
    List.not_mem_append (c.not_mem_indent (by decide)) (by decide)
      (h.subset (by decide : .char '(' ∈ Text.ofString " IN (("))
  have hname : ¬ Text.ofString " IN ((" <:+: .char ' ' :: c.name ++ Text.ofString " CHEC" := by
    intro h
    rw [hlast] at h
    exact c.noList (hlast ▸ Text.infix_of_infix_append (by decide) h)
  rw [hsplit, Text.infix_append_cons_iff (by decide) (by decide),
    Text.infix_append_cons_iff (by decide) (by decide), not_or, not_or]
  refine ⟨hbefore, hname, fun h => ?_⟩
  rcases (Text.infix_append_cons_iff (by decide) (by decide)).mp (hinner.trans h) with h | h
  · exact e.not_infix_bare
      (Text.infix_of_infix_cons (by decide) (Text.infix_of_infix_cons (by decide) h))
  · exact c.not_mem_comma (by decide) (h.subset (by decide : .char '(' ∈ Text.ofString "N ("))

/-- The rules for arrays find nothing in a line without casts. -/
theorem applyRules_line (e : Phrase .expression) :
    applyRules anyRules (c.line e.bare.text) = c.line e.bare.text :=
  applyRules_eq_self (c.not_array_infix_line e) (c.not_list_infix_line e)

/-- No parenthesis is closed that was not opened. -/
theorem balance_line (e : Phrase .expression) : balance (c.line e.text) = c.line e.text := by
  have hcount {s : Symbol} (hblank : s.isBlank = false) (hcomma : s ≠ .char ',')
      (hconstraint : s ∉ Text.ofString "CONSTRAINT ") (hcheck : s ∉ Text.ofString " CHECK ") :
      (c.line e.text).count s =
        c.name.count s + (e.text.count s + [Symbol.char '(', .char ')'].count s) := by
    rw [line_eq, front]
    simp only [List.count_append, List.count_cons, List.count_nil,
      List.count_eq_zero_of_not_mem (c.not_mem_indent hblank),
      List.count_eq_zero_of_not_mem hconstraint, List.count_eq_zero_of_not_mem hcheck,
      List.count_eq_zero_of_not_mem (c.not_mem_comma hcomma)]
    omega
  refine balance_eq_self ?_
  have hname := c.noClosing
  have hclosed := e.balanced_text.closed
  rw [hcount (by decide) (by decide) (by decide) (by decide),
    hcount (by decide) (by decide) (by decide) (by decide), hclosed]
  exact Nat.add_le_add_right hname _

/-- **A CHECK constraint is written without its casts, and is otherwise the same.** The line is that
of the same constraint around an expression that holds no `::`, has balanced parentheses and, up to
redundant parentheses, is the expression with every cast removed. It is the only expression that is
written so. -/
theorem convert_without_casts (e : Phrase .expression) :
    ∃ e' : Phrase .expression, convert (c.line e.text) = c.line e'.text ∧
      ¬ Text.ofString "::" <:+: e'.text ∧ e'.text.Balanced ∧ e'.plain = e.plain.uncast ∧
      ∀ read : Phrase .expression, read.text = e'.text → read = e' := by
  obtain ⟨peeled, hpeeled, hsame⟩ := c.peelCasts_line e
  have hcolon : .char ':' ∉ peeled.bare.text := peeled.not_mem_bare (by decide)
  refine ⟨peeled.bare, ?_, fun h => hcolon (h.subset (by decide)), peeled.bare.balanced_text,
    peeled.plain_bare.trans hsame, fun read hread => ?_⟩
  · rw [convert, hpeeled, bareCast_line, applyRules_line, balance_line]
  · have hends : Shape.expression.Ends [] := by
      intro s hs
      cases hs
    exact (Phrase.eq_of_text_append (hread ▸ hcolon) hcolon hends hends
      (congrArg (· ++ []) hread)).1

/-- A comparison of what is cast with a cast literal. -/
theorem comparison_without_casts :
    let a : Operand := .token ⟨"a", by decide, by decide⟩
    let x : Operand := .literal "x" (by decide)
    ∃ e : Phrase .expression,
      convert "    CONSTRAINT c CHECK (((a)::text = 'x'::character varying(3)))," =
          "    CONSTRAINT c CHECK (" ++ e.text ++ ")," ∧
        e.plain = .binary ⟨"=", by decide⟩ (.operand a) (.operand x) := by
  intro a x
  let c : CheckFrame := {
    indent := "    "
    name := "c"
    comma := ","
    blank := by decide
    noCast := by decide
    noArray := by decide
    noList := by decide
    noClosing := by decide
    isComma := .inr rfl }
  let text : CastType := ⟨"text", [], .word (by decide) (by decide), .none⟩
  let varying : CastType :=
    ⟨"character varying", "(3)", .several (by decide), @IsSize.length "3" ⟨by decide, by decide⟩⟩
  let e : Phrase .expression :=
    .binary ⟨"=", by decide⟩ (.cast (.operand a) text) (.castOperand x varying)
  have hline (body : Text) : c.line body = "    CONSTRAINT c CHECK (" ++ body ++ ")," := by
    have hfront : Text.ofString "    CONSTRAINT c CHECK (" =
        "    " ++ ("CONSTRAINT " ++ ("c" ++ Text.ofString " CHECK (")) := by decide
    have hend : Text.ofString ")," = ")" ++ Text.ofString "," := by decide
    simp only [line, c, hfront, hend, List.append_assoc]
  have htext : e.text = "((a)::text = 'x'::character varying(3))" := by decide +kernel
  obtain ⟨e', hconvert, -, -, hplain, -⟩ := c.convert_without_casts e
  rw [hline, hline, htext] at hconvert
  exact ⟨e', hconvert, hplain⟩

/-- The rules do not pass over the name of the constraint, so a name in quotes may be rewritten, or
cost the expression a parenthesis. -/
theorem quoted_name_rewritten :
    let line (name body : Text) : Text := "    CONSTRAINT " ++ name ++ " CHECK (" ++ body ++ ")"
    ∃ e : Phrase .expression, e.text = "(a > 0)" ∧
      ∀ name ∈ [Text.ofString "\"x::y\"", "\"x)\"", "\"= ANY ARRAY[x]\"", "\" IN ((x))\""],
        ¬ ∃ e' : Phrase .expression, convert (line name e.text) = line name e'.text := by
  intro line
  have hconvert {t t' : Text} (hpeel : parenthesizedCast.pattern.occursIn t = false)
      (h : balance (applyRules anyRules (bareCast.apply t)) = t') : convert t = t' := by
    rw [convert, peelCasts_eq_self hpeel, h]
  let zero : Operand := .token ⟨"0", by decide, by decide⟩
  let e : Phrase .expression :=
    .binary ⟨">", by decide⟩ (.operand (.token ⟨"a", by decide, by decide⟩)) (.operand zero)
  refine ⟨e, by decide, ?_⟩
  -- The name is another, or the expression is left with a parenthesis that is not closed.
  have hname {name t : Text} (hline : convert (line name e.text) = t)
      (hfront : ¬ Text.ofString "    CONSTRAINT " ++ name ++ Text.ofString " CHECK (" <+: t) :
      ¬ ∃ e' : Phrase .expression, convert (line name e.text) = line name e'.text := by
    rintro ⟨e', h⟩
    refine hfront (hline ▸ h ▸ ?_)
    simp only [line]
    rw [List.append_assoc _ e'.text]
    exact List.prefix_append ..
  have hopen {name body t : Text} (hline : convert (line name e.text) = t)
      (hbody : t = line name body) (hcount : body.count (.char ')') ≠ body.count (.char '(')) :
      ¬ ∃ e' : Phrase .expression, convert (line name e.text) = line name e'.text := by
    rintro ⟨e', h⟩
    rw [hline, hbody] at h
    obtain rfl := List.append_cancel_left (List.append_cancel_right h)
    exact hcount e'.balanced_text.closed
  simp only [List.forall_mem_cons]
  refine ⟨hname (hconvert (by decide +kernel) rfl) (by decide +kernel), ?_,
    hname (hconvert (by decide +kernel) rfl) (by decide +kernel),
    hname (hconvert (by decide +kernel) rfl) (by decide +kernel), List.forall_mem_nil _⟩
  exact @hopen _ "(a > 0" _ (hconvert (by decide +kernel) rfl) (by decide +kernel) (by decide)

end CheckFrame

end DumpDialect.CheckConstraint
