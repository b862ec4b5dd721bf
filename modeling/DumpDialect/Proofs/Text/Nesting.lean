import DumpDialect.Text.Basic

/-!
# Quotes and parentheses

A text is well bracketed if its single quotes come in pairs and its parentheses are balanced
outside of the literals between them. This is decided in one pass, which keeps in mind whether the
place lies in a literal and how many parentheses are open (`Nesting`).

- `Nesting.after_append`: texts one after the other.
- `Nesting.after_filter`, `Text.wellBracketed_congr`: only quotes and parentheses count.
- `Nesting.eq_of_after_eq`: from where a pass ends it is known where it began, so a stretch can be
  taken out without harm only if it leaves the place where it was.
- `Nesting.after_of_isPairs`: stretches that do so at every place.
-/

namespace DumpDialect

/-- Where a place of a text lies: in a literal or not, and in how many parentheses. -/
structure Nesting where
  inLiteral : Bool
  parens : Nat
deriving DecidableEq

namespace Nesting

/-- In no literal and no parentheses. -/
def outside : Nesting := ⟨false, 0⟩

/-- The place behind a symbol; there is none behind a parenthesis that closes nothing. -/
def step (σ : Nesting) (s : Symbol) : Option Nesting :=
  if s = .char '\x27' then some { σ with inLiteral := !σ.inLiteral }
  else if σ.inLiteral then some σ
  else if s = .char '(' then some { σ with parens := σ.parens + 1 }
  else if s = .char ')' then
    match σ.parens with
    | 0 => none
    | n + 1 => some { σ with parens := n }
  else some σ

/-- The place behind a text. -/
def after : Nesting → Text → Option Nesting
  | σ, [] => some σ
  | σ, s :: t => (σ.step s).bind fun τ => τ.after t

end Nesting

/-- The single quotes of the text come in pairs, and outside of the literals between them each
closing parenthesis closes one that was opened in front of it and none is left open. -/
def Text.WellBracketed (t : Text) : Prop := Nesting.outside.after t = some .outside

instance : DecidablePred Text.WellBracketed := fun _ => inferInstanceAs (Decidable (_ = _))

/-- A quote or a parenthesis. -/
def Symbol.isBracket (s : Symbol) : Bool := (Text.ofString "'()").contains s

namespace Nesting

variable {σ σ' τ : Nesting} {s : Symbol} {t u : Text}

theorem after_append (σ : Nesting) (t u : Text) :
    σ.after (t ++ u) = (σ.after t).bind fun τ => τ.after u := by
  induction t generalizing σ with
  | nil => rfl
  | cons s t ih =>
    rw [List.cons_append, after, after, Option.bind_assoc]
    simp only [ih]

@[simp] theorem after_singleton (σ : Nesting) (s : Symbol) : σ.after [s] = σ.step s :=
  Option.bind_fun_some (σ.step s)

/-- The place behind a text, from the place in front of the last part of it. -/
theorem after_append_append {front before last : Text} (hσ : σ.after (front ++ before) = some σ')
    (hτ : σ'.after last = some τ) : σ.after (front ++ (before ++ last)) = some τ := by
  rw [← List.append_assoc, after_append, hσ, Option.bind_some, hτ]

theorem step_of_isBracket_eq_false (h : s.isBracket = false) (σ : Nesting) :
    σ.step s = some σ := by
  have hnot : ∀ b ∈ Text.ofString "'()", s ≠ b := by
    rintro b hb rfl
    rw [Symbol.isBracket, List.contains_iff_mem.mpr hb] at h
    cases h
  rw [step, if_neg (hnot _ (by decide)), if_neg (hnot _ (by decide)), if_neg (hnot _ (by decide)),
    ite_self]

/-- Only quotes and parentheses lead from one place to another. -/
theorem after_filter (σ : Nesting) (t : Text) :
    σ.after (t.filter Symbol.isBracket) = σ.after t := by
  induction t generalizing σ with
  | nil => rfl
  | cons s t ih =>
    by_cases hs : s.isBracket = true
    · rw [List.filter_cons_of_pos hs, after, after]
      simp only [ih]
    · rw [List.filter_cons_of_neg hs, ih, after,
        step_of_isBracket_eq_false (Bool.eq_false_iff.mpr hs), Option.bind_some]

theorem after_congr (h : t.filter Symbol.isBracket = u.filter Symbol.isBracket) (σ : Nesting) :
    σ.after t = σ.after u := by
  rw [← after_filter σ t, h, after_filter]

/-- A step can be taken back. -/
theorem eq_of_step_eq (h : σ.step s = some τ) (h' : σ'.step s = some τ) : σ = σ' := by
  obtain ⟨literal, n⟩ := σ
  obtain ⟨literal', n'⟩ := σ'
  cases literal <;> cases literal' <;> grind [step]

/-- From where a text ends it is known where it began. -/
theorem eq_of_after_eq (h : σ.after t = some τ) (h' : σ'.after t = some τ) : σ = σ' := by
  induction t generalizing σ σ' with
  | nil => exact (Option.some.inj h).trans (Option.some.inj h').symm
  | cons s t ih =>
    obtain ⟨ρ, hstep, hrest⟩ := Option.bind_eq_some_iff.mp h
    obtain ⟨ρ', hstep', hrest'⟩ := Option.bind_eq_some_iff.mp h'
    obtain rfl := ih hrest hrest'
    exact eq_of_step_eq hstep hstep'

end Nesting

/-- Texts with the same quotes and parentheses are well bracketed together. -/
theorem Text.wellBracketed_congr {t u : Text}
    (h : t.filter Symbol.isBracket = u.filter Symbol.isBracket) :
    t.WellBracketed ↔ u.WellBracketed := by
  rw [WellBracketed, WellBracketed, Nesting.after_congr h]

/-- Whether the text is made of opening parentheses that are closed at once. -/
def Text.isPairs : Text → Bool
  | [] => true
  | [_] => false
  | s :: s' :: t => s = .char '(' && s' = .char ')' && Text.isPairs t

/-- Such pairs lead nowhere. -/
theorem Nesting.after_of_isPairs {t : Text} (h : Text.isPairs (t.filter Symbol.isBracket) = true)
    (σ : Nesting) : σ.after t = some σ := by
  rw [← after_filter]
  generalize t.filter Symbol.isBracket = t at h
  induction t using Text.isPairs.induct with
  | case1 => rfl
  | case2 => cases h
  | case3 s s' t ih =>
    simp only [Text.isPairs, Bool.and_eq_true, decide_eq_true_eq] at h
    obtain ⟨⟨rfl, rfl⟩, ht⟩ := h
    have hpair : (σ.step (.char '(')).bind (fun τ => τ.step (.char ')')) = some σ := by
      obtain ⟨literal, n⟩ := σ
      cases literal <;> rfl
    calc σ.after (.char '(' :: .char ')' :: t)
        = ((σ.step (.char '(')).bind fun τ => τ.step (.char ')')).bind fun τ => τ.after t :=
          (Option.bind_assoc ..).symm
      _ = some σ := by rw [hpair, Option.bind_some, ih ht]

end DumpDialect
