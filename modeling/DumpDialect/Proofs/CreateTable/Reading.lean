import DumpDialect.Proofs.CreateTable.Expression

/-!
# Reading an expression

An expression without casts is read in one way only. `Phrase.eq_of_text_append` says so of a phrase
that stands in front of more text, by an induction on one of two phrases that are written alike:
what may stand behind a phrase (`Shape.Ends`) shows where it ends.

- `Token.eq_of_text_append`, `Operand.eq_of_text_append`, `Operator.eq_of_text_append`: words and
  signs.
- `Phrase.eq_of_text_append`: phrases.
-/

namespace DumpDialect.CheckConstraint

variable {t t' : Text}

/-! ## Words and signs -/

theorem Token.eq_of_text_append {w w' : Token} (ht : ∀ s ∈ t.head?, s.isIn " ()," = true)
    (ht' : ∀ s ∈ t'.head?, s.isIn " ()," = true) (h : w.text ++ t = w'.text ++ t') :
    w = w' ∧ t = t' := by
  have hends {t : Text} (ht : ∀ s ∈ t.head?, s.isIn " ()," = true) :
      ∀ s ∈ t.head?, (!s.isIn " ,'()[]:") = false := by
    have hall : ∀ s ∈ Text.ofString " (),", (!s.isIn " ,'()[]:") = false := by decide
    exact fun s hs => hall s (List.contains_iff_mem.mp (ht s hs))
  obtain ⟨hw, hrest⟩ := Text.eq_of_runs_eq (fun s hs => by rw [w.plain s hs]; rfl)
    (fun s hs => by rw [w'.plain s hs]; rfl) (hends ht) (hends ht') h
  exact ⟨Token.ext hw, hrest⟩

/-- A literal ends with a quote that no other quote follows. -/
theorem eq_of_doubleQuotes_append {quote : Symbol} {v v' : Text} (ht : ∀ s ∈ t.head?, s ≠ quote)
    (ht' : ∀ s ∈ t'.head?, s ≠ quote)
    (h : doubleQuotes quote v ++ quote :: t = doubleQuotes quote v' ++ quote :: t') :
    v = v' ∧ t = t' := by
  have hquoted (u t : Text) :
      doubleQuotes quote (quote :: u) ++ quote :: t =
        quote :: quote :: (doubleQuotes quote u ++ quote :: t) := by
    simp [doubleQuotes_cons]
  have hother {s : Symbol} (hs : s ≠ quote) (u t : Text) :
      doubleQuotes quote (s :: u) ++ quote :: t = s :: (doubleQuotes quote u ++ quote :: t) := by
    simp [doubleQuotes_cons, hs]
  have hclosed {s : Symbol} {u t t' : Text} (ht : ∀ s ∈ t.head?, s ≠ quote) :
      quote :: t ≠ doubleQuotes quote (s :: u) ++ quote :: t' := fun h => by
    by_cases hs : s = quote
    · rw [hs, hquoted] at h
      obtain rfl := (List.cons.inj h).2
      exact ht quote rfl rfl
    · rw [hother hs] at h
      exact hs (List.cons.inj h).1.symm
  -- Both sides are read symbol by symbol; a doubled quote is one symbol of the value.
  induction v generalizing v' with
  | nil =>
    cases v' with
    | nil => exact ⟨rfl, (List.cons.inj h).2⟩
    | cons s v' => exact absurd h (hclosed ht)
  | cons s v ih =>
    cases v' with
    | nil => exact absurd h.symm (hclosed ht')
    | cons s' v' =>
      by_cases hs : s = quote <;> by_cases hs' : s' = quote
      · rw [hs, hs', hquoted, hquoted] at h
        obtain ⟨rfl, hrest⟩ := ih (List.cons.inj (List.cons.inj h).2).2
        exact ⟨by rw [hs, hs'], hrest⟩
      · rw [hs, hquoted, hother hs'] at h
        exact absurd (List.cons.inj h).1.symm hs'
      · rw [hs', hquoted, hother hs] at h
        exact absurd (List.cons.inj h).1 hs
      · rw [hother hs, hother hs'] at h
        obtain ⟨rfl, hinner⟩ := List.cons.inj h
        obtain ⟨rfl, hrest⟩ := ih hinner
        exact ⟨rfl, hrest⟩

/-- A word is no literal. -/
theorem Token.ne_dumped (w : Token) (value : Text) :
    w.text ++ t ≠ Insert.dumped value ++ t' := fun h => by
  obtain ⟨s, more, hw⟩ := List.exists_cons_of_ne_nil w.ne_nil
  rw [hw, Insert.dumped] at h
  obtain rfl : s = Insert.quote := (List.cons.inj h).1
  exact w.not_mem (by decide) (hw ▸ List.mem_cons_self)

theorem Operand.eq_of_text_append {a a' : Operand} (ht : ∀ s ∈ t.head?, s.isIn " )," = true)
    (ht' : ∀ s ∈ t'.head?, s.isIn " )," = true) (h : a.text ++ t = a'.text ++ t') :
    a = a' ∧ t = t' := by
  have hall : ∀ s ∈ Text.ofString " ),", s.isIn " ()," = true ∧ s ≠ Insert.quote := by decide
  have hends {t : Text} (ht : ∀ s ∈ t.head?, s.isIn " )," = true) :
      (∀ s ∈ t.head?, s.isIn " ()," = true) ∧ ∀ s ∈ t.head?, s ≠ Insert.quote :=
    ⟨fun s hs => (hall s (List.contains_iff_mem.mp (ht s hs))).1,
      fun s hs => (hall s (List.contains_iff_mem.mp (ht s hs))).2⟩
  cases a with
  | token w =>
    cases a' with
    | token w' =>
      obtain ⟨rfl, hrest⟩ := Token.eq_of_text_append (hends ht).1 (hends ht').1 h
      exact ⟨rfl, hrest⟩
    | literal value' plain' => exact absurd h (w.ne_dumped value')
  | literal value plain =>
    cases a' with
    | token w' => exact absurd h.symm (w'.ne_dumped value)
    | literal value' plain' =>
      have h : Insert.dumped value ++ t = Insert.dumped value' ++ t' := h
      simp only [Insert.dumped, List.append_assoc, List.cons_append, List.nil_append] at h
      obtain ⟨rfl, hrest⟩ := eq_of_doubleQuotes_append (hends ht).2 (hends ht').2
        (List.cons.inj h).2
      exact ⟨rfl, hrest⟩

/-- An operand is no call of a function. -/
theorem Operand.ne_call (a : Operand) (f : Token) (ht : ∀ s ∈ t.head?, s.isIn " )," = true) :
    a.text ++ t ≠ f.text ++ .char '(' :: t' := fun h => by
  cases a with
  | token w =>
    have hall : ∀ s ∈ Text.ofString " ),", s.isIn " ()," = true := by decide
    obtain ⟨-, rfl⟩ := Token.eq_of_text_append
      (fun s hs => hall s (List.contains_iff_mem.mp (ht s hs)))
      (by rintro _ ⟨⟩; decide) h
    exact absurd (ht _ rfl) (by decide)
  | literal value plain => exact f.ne_dumped value h.symm

theorem Operator.eq_of_text_append {op op' : Operator}
    (h : op.text ++ .char ' ' :: t = op'.text ++ .char ' ' :: t') : op = op' ∧ t = t' := by
  obtain ⟨hop, hrest⟩ := Text.eq_of_append_cons_eq_of_front (op.not_mem (by decide))
    (op'.not_mem (by decide)) h
  exact ⟨Operator.ext hop, hrest⟩

/-! ## Phrases -/

/-- The symbols that may stand behind a phrase. -/
def Shape.ends : Shape → Text
  | .expression => " ),"
  | .arguments => ")"

/-- The text may stand behind a phrase: it is empty, or a symbol comes first that shows where the
phrase ends. -/
def Shape.Ends (shape : Shape) (t : Text) : Prop := ∀ s ∈ t.head?, s.isIn shape.ends = true

theorem Shape.ends_cons {shape : Shape} {s : Symbol} (hs : s.isIn shape.ends = true) (t : Text) :
    shape.Ends (s :: t) := by
  rintro _ ⟨⟩
  exact hs

/-- What may stand behind the arguments of a function may stand behind the last of them. -/
theorem Shape.Ends.expression (h : Shape.arguments.Ends t) : Shape.expression.Ends t := by
  have hall : ∀ s ∈ Text.ofString ")", s.isIn " ),"= true := by decide
  exact fun s hs => hall s (List.contains_iff_mem.mp (h s hs))

namespace Phrase

variable {shape : Shape}

/-- An operand or a call does not begin with a parenthesis. -/
theorem append_ne_open {u : Text} (hne : u ≠ []) (hu : u.IsFlat) : u ++ t ≠ .char '(' :: t' :=
  fun h => by
    obtain ⟨s, more, rfl⟩ := List.exists_cons_of_ne_nil hne
    obtain rfl := (List.cons.inj h).1
    exact hu.1 List.mem_cons_self

/-- An expression that begins with a parenthesis is in parentheses. -/
theorem cases_of_open {e : Phrase .expression} (hcolon : .char ':' ∉ e.text)
    (h : e.text ++ t = .char '(' :: t') :
    (∃ op e₁ e₂, e = binary op e₁ e₂) ∨ ∃ e₁, e = parens e₁ := by
  cases e with
  | operand a => exact absurd h (append_ne_open a.ne_nil a.isFlat)
  | castOperand a T => exact absurd (colon_mem_castOperand a T) hcolon
  | cast e T => exact absurd (colon_mem_cast e T) hcolon
  | call f args =>
    rw [text, List.append_assoc] at h
    exact absurd h (append_ne_open f.ne_nil f.isFlat)
  | binary op e₁ e₂ => exact .inl ⟨op, e₁, e₂, rfl⟩
  | parens e₁ => exact .inr ⟨e₁, rfl⟩

/-- An expression that begins with an operand or the name of a function is not in parentheses. -/
theorem cases_of_flat {e : Phrase .expression} (hcolon : .char ':' ∉ e.text) {u : Text}
    (hne : u ≠ []) (hu : u.IsFlat) (h : u ++ t = e.text ++ t') :
    (∃ a, e = operand a) ∨ ∃ f args, e = call f args := by
  cases e with
  | operand a => exact .inl ⟨a, rfl⟩
  | castOperand a T => exact absurd (colon_mem_castOperand a T) hcolon
  | cast e T => exact absurd (colon_mem_cast e T) hcolon
  | call f args => exact .inr ⟨f, args, rfl⟩
  | binary op e₁ e₂ | parens e₁ => exact absurd h (append_ne_open hne hu)

/-- **A phrase without casts is read in one way only**, also in front of more text. -/
theorem eq_of_text_append {e e' : Phrase shape} (hcolon : .char ':' ∉ e.text)
    (hcolon' : .char ':' ∉ e'.text) (ht : shape.Ends t) (ht' : shape.Ends t')
    (h : e.text ++ t = e'.text ++ t') : e = e' ∧ t = t' := by
  -- By induction on the one phrase; the first symbols decide which the other is. A token in front
  -- of a parenthesis is a call, and what begins with a parenthesis is an operation or another pair
  -- of parentheses.
  induction e generalizing t t' with
  | operand a =>
    obtain ⟨a', rfl⟩ | ⟨f', args', rfl⟩ := cases_of_flat hcolon' a.ne_nil a.isFlat h
    · obtain ⟨rfl, hrest⟩ := Operand.eq_of_text_append ht ht' h
      exact ⟨rfl, hrest⟩
    · simp only [text, List.append_assoc, List.cons_append] at h
      exact absurd h (a.ne_call f' ht)
  | castOperand a T => exact absurd (colon_mem_castOperand a T) hcolon
  | cast e T => exact absurd (colon_mem_cast e T) hcolon
  | call f args ih =>
    simp only [text, List.append_assoc, List.cons_append, List.nil_append] at h
    obtain ⟨a', rfl⟩ | ⟨f', args', rfl⟩ := cases_of_flat hcolon' f.ne_nil f.isFlat h
    · exact absurd h.symm (a'.ne_call f ht')
    · simp only [text, List.append_assoc, List.cons_append, List.nil_append] at h
      obtain ⟨rfl, hargs⟩ := Token.eq_of_text_append (by rintro _ ⟨⟩; decide)
        (by rintro _ ⟨⟩; decide) h
      obtain ⟨rfl, hclose⟩ := ih (fun hs => hcolon (by simp [text, hs]))
        (fun hs => hcolon' (by simp [text, hs])) (Shape.ends_cons (by decide) t)
        (Shape.ends_cons (by decide) t') (List.cons.inj hargs).2
      exact ⟨rfl, (List.cons.inj hclose).2⟩
  | binary op e₁ e₂ ih₁ ih₂ =>
    simp only [text, List.append_assoc, List.cons_append, List.nil_append] at h
    obtain ⟨op', e₁', e₂', rfl⟩ | ⟨e', rfl⟩ := cases_of_open hcolon' h.symm
    all_goals simp only [text, List.append_assoc, List.cons_append, List.nil_append] at h
    · obtain ⟨rfl, hop⟩ := ih₁ (fun hs => hcolon (by simp [text, hs]))
        (fun hs => hcolon' (by simp [text, hs])) (Shape.ends_cons (by decide) _)
        (Shape.ends_cons (by decide) _) (List.cons.inj h).2
      obtain ⟨rfl, hright⟩ := Operator.eq_of_text_append (List.cons.inj hop).2
      obtain ⟨rfl, hclose⟩ := ih₂ (fun hs => hcolon (by simp [text, hs]))
        (fun hs => hcolon' (by simp [text, hs])) (Shape.ends_cons (by decide) t)
        (Shape.ends_cons (by decide) t') hright
      exact ⟨rfl, (List.cons.inj hclose).2⟩
    · -- An operator follows where the other expression is closed.
      obtain ⟨rfl, hclose⟩ := ih₁ (fun hs => hcolon (by simp [text, hs]))
        (fun hs => hcolon' (by simp [text, hs])) (Shape.ends_cons (by decide) _)
        (Shape.ends_cons (by decide) t') (List.cons.inj h).2
      cases (List.cons.inj hclose).1
  | parens e ih =>
    simp only [text, List.append_assoc, List.cons_append, List.nil_append] at h
    obtain ⟨op', e₁', e₂', rfl⟩ | ⟨e', rfl⟩ := cases_of_open hcolon' h.symm
    all_goals simp only [text, List.append_assoc, List.cons_append, List.nil_append] at h
    · obtain ⟨rfl, hclose⟩ := ih (fun hs => hcolon (by simp [text, hs]))
        (fun hs => hcolon' (by simp [text, hs])) (Shape.ends_cons (by decide) t)
        (Shape.ends_cons (by decide) _) (List.cons.inj h).2
      cases (List.cons.inj hclose).1
    · obtain ⟨rfl, hclose⟩ := ih (fun hs => hcolon (by simp [text, hs]))
        (fun hs => hcolon' (by simp [text, hs])) (Shape.ends_cons (by decide) t)
        (Shape.ends_cons (by decide) t') (List.cons.inj h).2
      exact ⟨rfl, (List.cons.inj hclose).2⟩
  | one e ih =>
    cases e' with
    | one e' =>
      obtain ⟨rfl, hrest⟩ := ih hcolon hcolon' ht.expression ht'.expression h
      exact ⟨rfl, hrest⟩
    | more e' args' =>
      simp only [text, List.append_assoc, List.cons_append] at h
      -- One list ends where the other has a comma.
      obtain ⟨rfl, rfl⟩ := ih hcolon (fun hs => hcolon' (by simp [text, hs])) ht.expression
        (Shape.ends_cons (by decide) _) h
      exact absurd (ht _ rfl) (by decide)
  | more e args ihe ihargs =>
    simp only [text, List.append_assoc, List.cons_append] at h
    cases e' with
    | one e' =>
      obtain ⟨rfl, rfl⟩ := ihe (fun hs => hcolon (by simp [text, hs])) hcolon'
        (Shape.ends_cons (by decide) _) ht'.expression h
      exact absurd (ht' _ rfl) (by decide)
    | more e' args' =>
      simp only [text, List.append_assoc, List.cons_append] at h
      obtain ⟨rfl, hargs⟩ := ihe (fun hs => hcolon (by simp [text, hs]))
        (fun hs => hcolon' (by simp [text, hs])) (Shape.ends_cons (by decide) _)
        (Shape.ends_cons (by decide) _) h
      obtain ⟨rfl, hrest⟩ := ihargs (fun hs => hcolon (by simp [text, hs]))
        (fun hs => hcolon' (by simp [text, hs])) ht ht' (List.cons.inj (List.cons.inj hargs).2).2
      exact ⟨rfl, hrest⟩

end Phrase

end DumpDialect.CheckConstraint
