import DumpDialect.Proofs.Insert.Literal
import DumpDialect.Proofs.Text.Balanced
import DumpDialect.Proofs.TypeName

/-!
# Expressions of CHECK constraints

PostgreSQL writes the expression of a CHECK constraint with parentheses around each operation and
around whatever is cast. `Phrase` is such an expression, with more parentheses than needed or not,
or the list of the arguments of a function, and `Phrase.text` is how it is written.

- `Phrase.uncast`, `Phrase.plain`: the phrase without its casts, and without the parentheses that
  it does not need.
- `Phrase.balanced_text`: the parentheses of a phrase are balanced.
- `Operator.goesOn`: what stands behind the first of two expressions.
-/

namespace DumpDialect.CheckConstraint

open DumpDialect.TypeName

/-! ## Words and signs -/

/-- A word or a number. -/
@[ext] structure Token where
  text : Text
  ne_nil : text ≠ []
  plain : ∀ s ∈ text, s.isIn " ,'()[]:" = false

/-- What an expression is made of in the end: words, numbers and literals. -/
inductive Operand where
  | token (w : Token)
  | literal (value : Text) (plain : ∀ s ∈ value, s.isIn "()[]:" = false)

/-- The operand as it is written. -/
def Operand.text : Operand → Text
  | token w => w.text
  | literal value _ => Insert.dumped value

/-- The operators. -/
def operators : List Text :=
  ["=", "<>", "<", ">", "<=", ">=", "+", "-", "*", "/", "||", "AND", "OR"]

/-- An operator between two expressions. -/
@[ext] structure Operator where
  text : Text
  isOperator : text ∈ operators

theorem Token.not_mem (w : Token) {s : Symbol} (hs : s.isIn " ,'()[]:" = true) : s ∉ w.text :=
  fun hmem => by
    rw [w.plain s hmem] at hs
    cases hs

theorem Token.isFlat (w : Token) : w.text.IsFlat := ⟨w.not_mem (by decide), w.not_mem (by decide)⟩

theorem Operand.not_mem (a : Operand) {s : Symbol} (hs : s.isIn "()[]:" = true) : s ∉ a.text := by
  have hall : ∀ s ∈ Text.ofString "()[]:", s ≠ Insert.quote ∧ s.isIn " ,'()[]:" = true := by decide
  obtain ⟨hquote, hplain⟩ := hall s (List.contains_iff_mem.mp hs)
  cases a with
  | token w => exact w.not_mem hplain
  | literal value plain =>
    have hvalue : s ∉ value := fun hmem => by
      rw [plain s hmem] at hs
      cases hs
    have hdoubled : s ∉ doubleQuotes Insert.quote value := fun hmem =>
      (mem_of_mem_doubleQuotes hmem).elim hquote hvalue
    simp [text, Insert.dumped, hquote, hdoubled]

theorem Operand.isFlat (a : Operand) : a.text.IsFlat :=
  ⟨a.not_mem (by decide), a.not_mem (by decide)⟩

theorem Operand.ne_nil (a : Operand) : a.text ≠ [] := by
  cases a with
  | token w => exact w.ne_nil
  | literal value plain => simp [text, Insert.dumped]

namespace Operator

variable (op : Operator)

theorem plain : ∀ s ∈ op.text, s.isIn " ()[]:" = false :=
  have hall : ∀ t ∈ operators, ∀ s ∈ t, s.isIn " ()[]:" = false := by decide
  hall op.text op.isOperator

theorem not_mem {s : Symbol} (hs : s.isIn " ()[]:" = true) : s ∉ op.text := fun hmem => by
  rw [op.plain s hmem] at hs
  cases hs

theorem isFlat : op.text.IsFlat := ⟨op.not_mem (by decide), op.not_mem (by decide)⟩

/-- The last symbol of an operator, which no word that ends in N ends with. -/
theorem exists_last : ∃ p z, op.text = p ++ [z] ∧ .char '(' ∉ p ∧ z ∉ Text.ofString "N (" := by
  have hall : ∀ t ∈ operators, ∃ z ∈ t.getLast?, z ∉ Text.ofString "N (" := by decide
  obtain ⟨z, hlast, hz⟩ := hall op.text op.isOperator
  obtain ⟨p, hp⟩ := List.getLast?_eq_some_iff.mp hlast
  exact ⟨p, z, hp, fun h => op.isFlat.1 (hp ▸ List.mem_append_left [z] h), hz⟩

/-- What stands between the parentheses of an operation is balanced if both sides of it are. -/
theorem balanced {t u : Text} (ht : t.Balanced) (hu : u.Balanced) :
    (t ++ .char ' ' :: (op.text ++ .char ' ' :: u)).Balanced := by
  have hblank : Text.Balanced [.char ' '] := Text.IsFlat.balanced (by decide)
  exact ht.append (hblank.append (op.isFlat.balanced.append (hblank.append hu)))

/-- An expression goes on behind the blank in front of an operator. -/
theorem goesOn (t : Text) : GoesOn (.char ' ' :: (op.text ++ t)) := by
  have hall : ∀ t ∈ operators, t.head?.any (Symbol.isIn "=<>+-*/|AO") = true := by decide
  have hhead := hall op.text op.isOperator
  cases hop : op.text with
  | nil => rw [hop] at hhead; cases hhead
  | cons s more =>
    rw [hop] at hhead
    exact .operator hhead (more ++ t)

end Operator

/-! ## Phrases -/

/-- What a phrase is: an expression, or the arguments of a function. -/
inductive Shape where
  | expression
  | arguments

/-- An expression of a CHECK constraint, or a list of arguments. -/
inductive Phrase : Shape → Type where
  | operand (a : Operand) : Phrase .expression
  | castOperand (a : Operand) (T : CastType) : Phrase .expression
  | cast (e : Phrase .expression) (T : CastType) : Phrase .expression
  | binary (op : Operator) (e₁ e₂ : Phrase .expression) : Phrase .expression
  | call (f : Token) (args : Phrase .arguments) : Phrase .expression
  | parens (e : Phrase .expression) : Phrase .expression
  | one (e : Phrase .expression) : Phrase .arguments
  | more (e : Phrase .expression) (args : Phrase .arguments) : Phrase .arguments

namespace Phrase

variable {shape : Shape}

/-- The phrase as it is written. -/
def text : {shape : Shape} → Phrase shape → Text
  | _, operand a => a.text
  | _, castOperand a T => a.text ++ (Text.ofString "::" ++ T.text)
  | _, cast e T => .char '(' :: (e.text ++ .char ')' :: (Text.ofString "::" ++ T.text))
  | _, binary op e₁ e₂ =>
    .char '(' :: (e₁.text ++ .char ' ' :: (op.text ++ .char ' ' :: (e₂.text ++ [.char ')'])))
  | _, call f args => f.text ++ .char '(' :: (args.text ++ [.char ')'])
  | _, parens e => .char '(' :: (e.text ++ [.char ')'])
  | _, one e => e.text
  | _, more e args => e.text ++ .char ',' :: .char ' ' :: args.text

/-- The phrase with every cast removed. -/
def uncast : {shape : Shape} → Phrase shape → Phrase shape
  | _, operand a => operand a
  | _, castOperand a _ => operand a
  | _, cast e _ => e.uncast
  | _, binary op e₁ e₂ => binary op e₁.uncast e₂.uncast
  | _, call f args => call f args.uncast
  | _, parens e => parens e.uncast
  | _, one e => one e.uncast
  | _, more e args => more e.uncast args.uncast

/-- The phrase without redundant parentheses. -/
def plain : {shape : Shape} → Phrase shape → Phrase shape
  | _, operand a => operand a
  | _, castOperand a T => castOperand a T
  | _, cast e T => cast e.plain T
  | _, binary op e₁ e₂ => binary op e₁.plain e₂.plain
  | _, call f args => call f args.plain
  | _, parens e => e.plain
  | _, one e => one e.plain
  | _, more e args => more e.plain args.plain

/-! ## What a phrase holds -/

theorem colon_mem_castOperand (a : Operand) (T : CastType) :
    .char ':' ∈ (castOperand a T).text := by
  have hmem : .char ':' ∈ Text.ofString "::" := by decide
  simp [text, hmem]

theorem colon_mem_cast (e : Phrase .expression) (T : CastType) : .char ':' ∈ (cast e T).text := by
  have hmem : .char ':' ∈ Text.ofString "::" := by decide
  simp [text, hmem]

theorem ne_nil (e : Phrase shape) : e.text ≠ [] := by
  induction e with
  | operand a => exact a.ne_nil
  | castOperand a T => exact fun h => a.ne_nil (List.append_eq_nil_iff.mp h).1
  | call f args ih => exact fun h => f.ne_nil (List.append_eq_nil_iff.mp h).1
  | one e ih => exact ih
  | more e args ihe ihargs => exact fun h => ihe (List.append_eq_nil_iff.mp h).1
  | cast | binary | parens => simp [text]

/-- The parentheses of a phrase are balanced. -/
theorem balanced_text (e : Phrase shape) : e.text.Balanced := by
  have hflat {t : Text} (h : t.IsFlat) : t.Balanced := h.balanced
  induction e with
  | operand a => exact hflat a.isFlat
  | castOperand a T =>
    exact (hflat a.isFlat).append ((hflat (by decide)).append T.balanced_text)
  | cast e T ih =>
    simpa [text] using ih.enclose.append ((hflat (t := "::") (by decide)).append T.balanced_text)
  | binary op e₁ e₂ ih₁ ih₂ =>
    simpa [text] using (op.balanced ih₁ ih₂).enclose
  | call f args ih => exact (hflat f.isFlat).append ih.enclose
  | parens e ih => exact ih.enclose
  | one e ih => exact ih
  | more e args ihe ihargs => exact ihe.append ((hflat (t := ", ") (by decide)).append ihargs)

end Phrase

end DumpDialect.CheckConstraint
